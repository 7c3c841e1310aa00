import SailsProtocol.Auth.Handshake

/-!
# Single-use challenges

`Tracked` is the invariant of every run : each value in Redis and each value a request read or
consumed was written by a request that may write it, within its expiry, and each user has proved
possession of the key. In a run that never draws the same bytes twice, each value is written
once (`Once`), so it is consumed once.

`proofs_rest_on_challenges` : a session or a registration rests on one challenge of its flow,
consumed while it was valid and after its signature verified, and no other request is accepted
on that challenge. `outstanding_challenge_kept` : nothing but such a request, or a newer
challenge, takes a challenge away. `registered_with_proof` : each user's key signed the name
the row carries.
-/

namespace Sails.Auth

open Async Text Identity
open Async.SingleUse (Change Lawful held)

variable {verify : List UInt8 → List UInt8 → List UInt8 → Bool} {cfg : AuthConfig}

/-! ## What a call does -/

section Calls

variable {q : Call} {env : Env} {s : Store}

/-- What a call does to the store. -/
inductive Effect (s : Store) : Call → Store → Prop
  | nothing (q : Call) : Effect s q s
  | written (key : List UInt8) (value : JsString) (ttl : ℕ) :
    Effect s (.set key value ttl) { s with redis := s.redis.set key value ttl }
  | used (q : Call) (key : List UInt8) (value : JsString)
    (hcall : q = .compareAndConsume key value ∨ q = .consume key)
    (hget : s.redis.get key = some value) :
    Effect s q { s with redis := s.redis.del key value }
  | created (user : User) (hnew : ∀ u ∈ s.users, u.publicKey ≠ user.publicKey) :
    Effect s (.createUser user.publicKey user.displayName) { s with users := user :: s.users }
  | elapsed (seconds : ℕ) : Effect s (.elapse seconds)
      { s with redis := { s.redis with now := s.redis.now + seconds } }

/-- A call that does not fail has one of the effects. -/
theorem run_effect (q : Call) (env : Env) (s : Store) : Effect s q (q.run env s).2 := by
  cases q with
  | randomBytes => exact .nothing _
  | set key value ttl => exact .written key value ttl
  | get key => exact .nothing _
  | compareAndConsume key expected =>
    by_cases hget : s.redis.get key = some expected
    · simp only [Call.run, Redis.compareAndConsume, if_pos hget]
      exact .used _ key expected (Or.inl rfl) hget
    · simp only [Call.run, Redis.compareAndConsume, if_neg hget]
      exact .nothing _
  | consume key =>
    cases hget : s.redis.get key with
    | none =>
      simp only [Call.run, Redis.consume, hget]
      exact .nothing _
    | some value =>
      simp only [Call.run, Redis.consume, hget]
      exact .used _ key value (Or.inr rfl) hget
  | findUser publicKey => exact .nothing _
  | createUser publicKey displayName =>
    by_cases htaken : (s.users.any fun u => u.publicKey = publicKey ∨ u.id = env.id) = true
    · simp only [Call.run, Store.createUser, if_pos htaken]
      exact .nothing _
    · simp only [Call.run, Store.createUser, if_neg htaken]
      refine .created ⟨env.id, publicKey, displayName⟩ fun u hu heq => htaken ?_
      exact List.any_eq_true.mpr ⟨u, hu, by simp [heq]⟩
  | elapse seconds => exact .elapsed seconds

/-- A call has one of the effects, or none when it fails. -/
theorem exec_effect (q : Call) (env : Env) (s : Store) : Effect s q (q.exec env s).2 := by
  unfold Call.exec
  split_ifs
  · rcases env.fate.settle_store AuthFailure.fault (q.run env s) s with heq | heq
    · rw [heq]
      exact .nothing _
    · rw [heq]
      exact run_effect q env s
  · exact run_effect q env s

/-- An answer is the call's own. -/
theorem exec_ok {a : Answer q} (h : (q.exec env s).1 = .ok a) : q.exec env s = q.run env s := by
  unfold Call.exec at h ⊢
  split_ifs at h ⊢
  · rcases env.fate.settle_answer AuthFailure.fault (q.run env s) s with heq | heq
    · exact heq
    · cases heq.symm.trans h
  · rfl

/-- What is observed of a call, and what it says. -/
inductive Observed (q : Call) (env : Env) (s s' : Store) : Seen → Prop
  | drew (hcall : q = .randomBytes) : Observed q env s s' (.drew env.bytes)
  | sent (key : List UInt8) (value : JsString) (ttl : ℕ) (hcall : q = .set key value ttl) :
    Observed q env s s' (.sent key value s.redis.now)
  | read (key : List UInt8) (value : JsString) (hget : s.redis.get key = some value) :
    Observed q env s s' (.read key value s.redis.now)
  | consumed (key : List UInt8) (value : JsString) (hget : s.redis.get key = some value)
    (hstore : s' = { s with redis := s.redis.del key value }) :
    Observed q env s s' (.consumed key value s.redis.now)
  | found (user : User) (hrow : user ∈ s.users) : Observed q env s s' (.found user)

/-- What a call shows tells what it did. -/
theorem observe_cases {o : Seen} (h : o ∈ observe q s (q.exec env s).1) :
    Observed q env s (q.exec env s).2 o := by
  cases q with
  | randomBytes =>
    obtain rfl := List.mem_singleton.mp h
    exact .drew rfl
  | set key value ttl =>
    obtain rfl := List.mem_singleton.mp h
    exact .sent key value ttl rfl
  | get key =>
    rcases hr : (Call.exec (.get key) env s).1 with e | _ | value <;> rw [hr] at h
    · cases h
    · cases h
    · obtain rfl := List.mem_singleton.mp h
      rw [exec_ok hr] at hr
      exact .read key value (Except.ok.inj hr)
  | compareAndConsume key expected =>
    rcases hr : (Call.exec (.compareAndConsume key expected) env s).1 with e | _ | _ <;>
      rw [hr] at h
    · cases h
    · cases h
    · obtain rfl := List.mem_singleton.mp h
      have hrun := exec_ok hr
      rw [hrun] at hr ⊢
      by_cases hget : s.redis.get key = some expected
      · exact .consumed key expected hget (by simp [Call.run, Redis.compareAndConsume, hget])
      · simp [Call.run, Redis.compareAndConsume, hget] at hr
  | consume key =>
    rcases hr : (Call.exec (.consume key) env s).1 with e | _ | value <;> rw [hr] at h
    · cases h
    · cases h
    · obtain rfl := List.mem_singleton.mp h
      have hrun := exec_ok hr
      rw [hrun] at hr ⊢
      cases hget : s.redis.get key with
      | none => simp [Call.run, Redis.consume, hget] at hr
      | some v =>
        obtain rfl : v = value := by simpa [Call.run, Redis.consume, hget] using hr
        exact .consumed key v hget (by simp [Call.run, Redis.consume, hget])
  | findUser publicKey =>
    rcases hr : (Call.exec (.findUser publicKey) env s).1 with e | _ | user <;> rw [hr] at h
    · cases h
    · cases h
    · obtain rfl := List.mem_singleton.mp h
      rw [exec_ok hr] at hr
      exact .found user (List.mem_of_find?_eq_some (Except.ok.inj hr))
  | createUser publicKey displayName => cases h
  | elapse seconds => cases h

/-- What is read is not expired. -/
theorem Redis.entry_of_get {r : Redis} {key : List UInt8} {value : JsString}
    (h : r.get key = some value) : ∃ e, r.entry key = some e ∧ e.value = value ∧
      r.now < e.expiresAt := by
  unfold Redis.get at h
  cases hentry : r.entry key with
  | none =>
    rw [hentry] at h
    cases h
  | some e =>
    rw [hentry] at h
    dsimp only at h
    split_ifs at h with hlive
    exact ⟨e, rfl, Option.some.inj h, hlive⟩

end Calls

/-! ## What every run keeps -/

section Invariants

variable (verify) (cfg)

/-- Request `i` sent the value for the text's key, and may write it. -/
def Written (c : Server) (i : ℕ) (space : Space) (text value : JsString) (time : ℕ) : Prop :=
  ∃ bytes req, c.reqOf i = some req ∧ Backed verify (c.own i) bytes req space text value ∧
    .drew bytes ∈ c.own i ∧ .sent (space.key text) value time ∈ c.own i

/-- The key had the value at the time, and it was not expired. -/
def Valid (c : Server) (key : List UInt8) (value : JsString) (time : ℕ) : Prop :=
  ∃ i space text sentAt, key = space.key text ∧ Written verify c i space text value sentAt ∧
    sentAt ≤ time ∧ time < sentAt + space.ttl cfg

/-- Request `i` consumed the challenge at the time, after the key's signature verified. -/
def Proves (c : Server) (i : ℕ) (flow : Flow) (publicKey signature : JsString)
    (displayName : Option JsString) (challenge : JsString) (time : ℕ) : Prop :=
  ∃ req, c.reqOf i = some req ∧ Claims req flow publicKey signature displayName ∧
    Proved verify flow publicKey signature displayName challenge time (c.own i)

/-- The user's key signed a registration challenge with the user's name. -/
def Registered (c : Server) (user : User) : Prop :=
  ∃ i signature challenge time, Proves verify c i .registration user.publicKey signature
    user.displayName challenge time

/-- What the store holds was written by requests of the run. -/
structure Kept (c : Server) (s : Store) : Prop where
  lawful : Lawful s.redis.log
  agrees : ∀ {key e}, s.redis.entry key = some e → held s.redis.log key = some e.value
  entries : ∀ {key e}, s.redis.entry key = some e → ∃ i space text sentAt,
    key = space.key text ∧ Written verify c i space text e.value sentAt ∧
      sentAt ≤ s.redis.now ∧ e.expiresAt = sentAt + space.ttl cfg
  logged : ∀ {key value}, .written key value ∈ s.redis.log →
    ∃ i time, .sent key value time ∈ c.own i
  rows : ∀ {user}, user ∈ s.users → Registered verify c user
  unique : (s.users.map User.publicKey).Nodup

/-- What every run keeps of the store and of each log. -/
structure Tracked (c : Server) : Prop where
  kept : Kept verify cfg c c.store
  sent : ∀ {i key value time}, .sent key value time ∈ c.own i →
    ∃ space text, key = space.key text ∧ Written verify c i space text value time
  read : ∀ {i key value time}, .read key value time ∈ c.own i → Valid verify cfg c key value time
  consumed : ∀ {i key value time}, .consumed key value time ∈ c.own i →
    Valid verify cfg c key value time ∧ .used key value ∈ c.store.redis.log
  found : ∀ {i user}, .found user ∈ c.own i → user ∈ c.store.users

/-- What happened stays. -/
structure Extends (c c' : Server) : Prop where
  own : ∀ {i o}, o ∈ c.own i → o ∈ c'.own i
  request : ∀ {i req}, c.reqOf i = some req → c'.reqOf i = some req

variable {verify} {cfg} {c c' : Server}

/-- What backs a value still does so in a longer log. -/
theorem Backed.mono {log log' : List Seen} {bytes : Random} {req : Request} {space : Space}
    {text value : JsString} (h : Backed verify log bytes req space text value)
    (hlog : ∀ o ∈ log, o ∈ log') : Backed verify log' bytes req space text value := by
  cases h with
  | challenge flow publicKey hkey => exact .challenge flow _ hkey
  | session _ user signature challenge time hclaims hfound hproved =>
    exact .session _ user signature challenge time hclaims (hlog _ hfound)
      ⟨hlog _ hproved.1, hproved.2⟩
  | wsTicket authorization participantId time hread =>
    obtain ⟨token, htoken, hmem⟩ := hread
    exact .wsTicket authorization _ time ⟨token, htoken, hlog _ hmem⟩

theorem Written.mono (hext : Extends c c') {i : ℕ} {space : Space} {text value : JsString}
    {time : ℕ} (h : Written verify c i space text value time) :
    Written verify c' i space text value time := by
  obtain ⟨bytes, req, hreq, hback, hdrew, hsent⟩ := h
  exact ⟨bytes, req, hext.request hreq, hback.mono fun _ => hext.own, hext.own hdrew,
    hext.own hsent⟩

theorem Valid.mono (hext : Extends c c') {key : List UInt8} {value : JsString} {time : ℕ}
    (h : Valid verify cfg c key value time) : Valid verify cfg c' key value time := by
  obtain ⟨i, space, text, sentAt, hkey, hwritten, hle, hlt⟩ := h
  exact ⟨i, space, text, sentAt, hkey, hwritten.mono hext, hle, hlt⟩

theorem Registered.mono (hext : Extends c c') {user : User} (h : Registered verify c user) :
    Registered verify c' user := by
  obtain ⟨i, signature, challenge, time, req, hreq, hclaims, hmem, hverify⟩ := h
  exact ⟨i, signature, challenge, time, req, hext.request hreq, hclaims, hext.own hmem, hverify⟩

/-- What the store keeps is kept later. -/
theorem Kept.mono (hext : Extends c c') {s : Store} (h : Kept verify cfg c s) :
    Kept verify cfg c' s where
  lawful := h.lawful
  agrees := h.agrees
  entries hentry := by
    obtain ⟨i, space, text, sentAt, hkey, hwritten, htime⟩ := h.entries hentry
    exact ⟨i, space, text, sentAt, hkey, hwritten.mono hext, htime⟩
  logged hmem := by
    obtain ⟨i, time, hsent⟩ := h.logged hmem
    exact ⟨i, time, hext.own hsent⟩
  rows hmem := (h.rows hmem).mono hext
  unique := h.unique

/-- What is read now is valid. -/
theorem Kept.valid {s : Store} (h : Kept verify cfg c s) {key : List UInt8} {value : JsString}
    (hget : s.redis.get key = some value) : Valid verify cfg c key value s.redis.now := by
  obtain ⟨e, hentry, rfl, hlive⟩ := Redis.entry_of_get hget
  obtain ⟨i, space, text, sentAt, hkey, hwritten, hle, hexpires⟩ := h.entries hentry
  exact ⟨i, space, text, sentAt, hkey, hwritten, hle, hexpires ▸ hlive⟩

theorem Kept.holds {s : Store} (h : Kept verify cfg c s) {key : List UInt8} {value : JsString}
    (hget : s.redis.get key = some value) : held s.redis.log key = some value := by
  obtain ⟨e, hentry, rfl, -⟩ := Redis.entry_of_get hget
  exact h.agrees hentry

/-- A call whose write or new user is backed keeps the store. -/
theorem Kept.effect {s s' : Store} {q : Call} (h : Kept verify cfg c s) (heffect : Effect s q s')
    (hset : ∀ key value ttl, q = .set key value ttl → ∃ i space text, key = space.key text ∧
      ttl = space.ttl cfg ∧ Written verify c i space text value s.redis.now)
    (hcreate : ∀ user : User, q = .createUser user.publicKey user.displayName →
      Registered verify c user) : Kept verify cfg c s' := by
  cases heffect with
  | nothing => exact h
  | written key value ttl =>
    obtain ⟨i, space, text, hkey, httl, hwritten⟩ := hset key value ttl rfl
    refine ⟨h.lawful, fun {k e} he => ?_, fun {k e} he => ?_, fun {k v} hmem => ?_, h.rows,
      h.unique⟩
    · by_cases heq : k = key
      · subst heq
        simp only [Redis.set, Function.update_self, Option.some.injEq] at he
        simp [Redis.set, held, ← he]
      · simp only [Redis.set, Function.update_of_ne heq] at he
        simp only [Redis.set, held, if_neg (Ne.symm heq)]
        exact h.agrees he
    · by_cases heq : k = key
      · subst heq
        simp only [Redis.set, Function.update_self, Option.some.injEq] at he
        subst he
        exact ⟨i, space, text, s.redis.now, hkey, hwritten, le_rfl, by rw [httl]⟩
      · simp only [Redis.set, Function.update_of_ne heq] at he
        exact h.entries he
    · rcases List.mem_cons.mp hmem with heq | hmem
      · obtain ⟨rfl, rfl⟩ := Change.written.inj heq
        obtain ⟨-, -, -, -, -, hsent⟩ := hwritten
        exact ⟨i, s.redis.now, hkey ▸ hsent⟩
      · exact h.logged hmem
  | used q key value hcall hget =>
    refine ⟨⟨h.lawful, h.holds hget⟩, fun {k e} he => ?_, fun {k e} he => ?_,
      fun {k v} hmem => ?_, h.rows, h.unique⟩
    · by_cases heq : k = key
      · subst heq
        simp [Redis.del] at he
      · simp only [Redis.del, Function.update_of_ne heq] at he
        simp only [Redis.del, held, if_neg (Ne.symm heq)]
        exact h.agrees he
    · by_cases heq : k = key
      · subst heq
        simp [Redis.del] at he
      · simp only [Redis.del, Function.update_of_ne heq] at he
        exact h.entries he
    · rcases List.mem_cons.mp hmem with heq | hmem
      · cases heq
      · exact h.logged hmem
  | created user hnew =>
    refine ⟨h.lawful, h.agrees, h.entries, h.logged, fun {u} hu => ?_, ?_⟩
    · rcases List.mem_cons.mp hu with rfl | hu
      · exact hcreate u rfl
      · exact h.rows hu
    · refine List.nodup_cons.mpr ⟨fun hmem => ?_, h.unique⟩
      obtain ⟨u, hu, heq⟩ := List.mem_map.mp hmem
      exact hnew u hu heq
  | elapsed seconds =>
    refine ⟨h.lawful, h.agrees, fun {k e} he => ?_, h.logged, h.rows, h.unique⟩
    obtain ⟨i, space, text, sentAt, hkey, hwritten, hle, hexpires⟩ := h.entries he
    exact ⟨i, space, text, sentAt, hkey, hwritten, Nat.le_add_right_of_le hle, hexpires⟩

theorem tracked_fresh : Tracked verify cfg fresh where
  kept := ⟨trivial, nofun, nofun, nofun, nofun, List.nodup_nil⟩
  sent := nofun
  read := nofun
  consumed := nofun
  found := nofun

/-- A step that changes neither the store nor what was seen. -/
theorem Tracked.same (h : Tracked verify cfg c) (hext : Extends c c')
    (hstore : c'.store = c.store) (hown : ∀ i, c'.own i = c.own i) : Tracked verify cfg c' where
  kept := by
    rw [hstore]
    exact h.kept.mono hext
  sent hm := by
    obtain ⟨space, text, hkey, hwritten⟩ := h.sent (hown _ ▸ hm)
    exact ⟨space, text, hkey, hwritten.mono hext⟩
  read hm := (h.read (hown _ ▸ hm)).mono hext
  consumed hm := by
    obtain ⟨hvalid, hused⟩ := h.consumed (hown _ ▸ hm)
    exact ⟨hvalid.mono hext, by rw [hstore]; exact hused⟩
  found hm := by
    rw [hstore]
    exact h.found (hown _ ▸ hm)

section Answer

variable {i : ℕ} {env : Env} {req : Request} {q : Call}
variable {k : Except AuthFailure (Answer q) → AuthOp Reply}

theorem extends_answer (ht : c.threads[i]? = some ⟨req, .call q k, true⟩) :
    Extends c (c.answer (credentials verify cfg) i env req q k) where
  own := Config.mem_own_answer
  request hreq := by
    rw [Config.reqOf_answer ht]
    exact hreq

theorem Tracked.sent_of_consumed (h : Tracked verify cfg c) {key : List UInt8}
    {value : JsString} {j time : ℕ} (hmem : .consumed key value time ∈ c.own j) :
    ∃ i sentAt, .sent key value sentAt ∈ c.own i := by
  obtain ⟨i, space, text, sentAt, rfl, ⟨-, -, -, -, -, hsent⟩, -⟩ := (h.consumed hmem).1
  exact ⟨i, sentAt, hsent⟩

/-- What is new in the log of a thread after a call. -/
theorem observed_of_answer {j : ℕ} {o : Seen}
    (h : o ∈ (c.answer (credentials verify cfg) i env req q k).own j) :
    j = i ∧ Observed q env c.store (c.answer (credentials verify cfg) i env req q k).store o ∨
      o ∈ c.own j :=
  (Config.mem_own_of_answer h).imp_left fun hnew => ⟨hnew.1, observe_cases hnew.2⟩

/-- A write is backed by what the request has seen. -/
theorem written_of_set {key : List UInt8} {value : JsString} {ttl : ℕ}
    (ht : c.threads[i]? = some ⟨req, .call q k, true⟩) (hcall : q = .set key value ttl)
    (hg : Allowed verify cfg req (c.own i) q) :
    ∃ space text, key = space.key text ∧ ttl = space.ttl cfg ∧
      Written verify (c.answer (credentials verify cfg) i env req q k) i space text value
        c.store.redis.now := by
  subst hcall
  obtain ⟨bytes, rest, space, text, hlog, -, rfl, httl, hback⟩ := hg
  refine ⟨space, text, rfl, httl, bytes, req, ?_, hback.mono fun o ho => ?_, ?_, ?_⟩
  · exact (extends_answer ht).request (Config.reqOf_of_thread ht)
  · refine Config.mem_own_answer ?_
    rw [hlog]
    exact List.mem_cons_of_mem _ ho
  · refine Config.mem_own_answer ?_
    rw [hlog]
    exact List.mem_cons_self
  · exact Config.mem_own.mpr (Config.mem_trace_of_observe (List.mem_singleton_self _))

/-- A call keeps the track. -/
theorem Tracked.answer (h : Tracked verify cfg c)
    (ht : c.threads[i]? = some ⟨req, .call q k, true⟩)
    (hg : Allowed verify cfg req (c.own i) q) :
    Tracked verify cfg (c.answer (credentials verify cfg) i env req q k) := by
  have hext : Extends c (c.answer (credentials verify cfg) i env req q k) := extends_answer ht
  have hold := h.kept.mono hext
  have heffect : Effect c.store q (c.answer (credentials verify cfg) i env req q k).store :=
    exec_effect q env c.store
  have hkept := hold.effect heffect
    (fun key value ttl hcall => ⟨i, written_of_set ht hcall hg⟩) fun user hcall => by
      subst hcall
      obtain ⟨signature, challenge, time, hclaims, hproved⟩ := hg
      exact ⟨i, signature, challenge, time, req, hext.request (Config.reqOf_of_thread ht),
        hclaims, hext.own hproved.1, hproved.2⟩
  refine ⟨hkept, fun hm => ?_, fun hm => ?_, fun {j key value time} hm => ?_, fun hm => ?_⟩
  · rcases observed_of_answer hm with ⟨rfl, hobs⟩ | hm
    · cases hobs with
      | sent key value ttl hcall =>
        obtain ⟨space, text, hkey, -, hwritten⟩ := written_of_set ht hcall hg
        exact ⟨space, text, hkey, hwritten⟩
    · obtain ⟨space, text, hkey, hwritten⟩ := h.sent hm
      exact ⟨space, text, hkey, hwritten.mono hext⟩
  · rcases observed_of_answer hm with ⟨rfl, hobs⟩ | hm
    · cases hobs with
      | read key value hget => exact hold.valid hget
    · exact (h.read hm).mono hext
  · rcases observed_of_answer hm with ⟨rfl, hobs⟩ | hm
    · generalize hstore : (c.answer (credentials verify cfg) j env req q k).store = s' at hobs
      cases hobs with
      | consumed key value hget hs' =>
        rw [hs']
        exact ⟨hold.valid hget, List.mem_cons_self⟩
    · obtain ⟨hvalid, hused⟩ := h.consumed hm
      refine ⟨hvalid.mono hext, ?_⟩
      generalize (c.answer (credentials verify cfg) i env req q k).store = s' at heffect
      cases heffect with
      | nothing => exact hused
      | written key value ttl => exact List.mem_cons_of_mem _ hused
      | used q key value hcall hget => exact List.mem_cons_of_mem _ hused
      | created user hnew => exact hused
      | elapsed seconds => exact hused
  · have hrow : ∀ {user}, user ∈ c.store.users →
        user ∈ (c.answer (credentials verify cfg) i env req q k).store.users := by
      intro user huser
      generalize (c.answer (credentials verify cfg) i env req q k).store = s' at heffect ⊢
      cases heffect with
      | created user' hnew => exact List.mem_cons_of_mem _ huser
      | _ => exact huser
    rcases observed_of_answer hm with ⟨rfl, hobs⟩ | hm
    · cases hobs with
      | found user huser => exact hrow huser
    · exact hrow (h.found hm)

end Answer

end Invariants

/-! ## Values that are written once -/

section Once

variable (verify) (cfg)

/-- Each bytes are drawn once, and each value is written, consumed and sent once. -/
structure Once (c : Server) : Prop where
  draws : ∀ {i j bytes}, .drew bytes ∈ c.own i → .drew bytes ∈ c.own j → i = j
  writes : ∀ key value, c.store.redis.log.count (.written key value) ≤ 1
  consumes : ∀ {i j key value time time'}, .consumed key value time ∈ c.own i →
    .consumed key value time' ∈ c.own j → i = j
  sends : ∀ {i key value time key' value' time'}, .sent key value time ∈ c.own i →
    .sent key' value' time' ∈ c.own i → key = key' ∧ value = value'

variable {verify} {cfg} {c : Server}

theorem plain_of_mem_hexText {bytes : List UInt8} {u : UInt16} (h : u ∈ hexText bytes) :
    isSurrogate u = false :=
  @plain_of_mem_hexDigest (fun _ => bytes) u [] h

/-- The drawn bytes are the value of a challenge and the key of a session or a ticket. -/
theorem Backed.token {log : List Seen} {bytes : Random} {req : Request} {space : Space}
    {text value : JsString} (h : Backed verify log bytes req space text value) :
    (space = .challenge ∨ space = .registerChallenge) ∧ value = hexText bytes.val ∨
      (space = .session ∨ space = .wsTicket) ∧ text = hexText bytes.val := by
  cases h with
  | challenge flow publicKey hkey =>
    cases flow
    · exact Or.inl ⟨Or.inl rfl, rfl⟩
    · exact Or.inl ⟨Or.inr rfl, rfl⟩
  | session => exact Or.inr ⟨Or.inl rfl, rfl⟩
  | wsTicket => exact Or.inr ⟨Or.inr rfl, rfl⟩

/-- A written value tells which bytes were drawn for it. -/
theorem Backed.bytes_eq {log log' : List Seen} {bytes bytes' : Random} {req req' : Request}
    {space : Space} {text text' value : JsString}
    (h : Backed verify log bytes req space text value)
    (h' : Backed verify log' bytes' req' space text' value)
    (htext : toUtf8 text = toUtf8 text') : bytes = bytes' := by
  rcases h.token with ⟨hspace, hvalue⟩ | ⟨hspace, htoken⟩ <;>
    rcases h'.token with ⟨hspace', hvalue'⟩ | ⟨hspace', htoken'⟩
  · exact Subtype.ext (hexText_injective (hvalue.symm.trans hvalue'))
  · rcases hspace with rfl | rfl <;> rcases hspace' with hs | hs <;> cases hs
  · rcases hspace with rfl | rfl <;> rcases hspace' with hs | hs <;> cases hs
  · rw [htoken, htoken', toUtf8_eq_iff, toWellFormed_of_plain fun _ => plain_of_mem_hexText,
      toWellFormed_of_plain fun _ => plain_of_mem_hexText] at htext
    exact Subtype.ext (hexText_injective htext)

variable {i : ℕ} {env : Env} {req : Request} {q : Call}
variable {k : Except AuthFailure (Answer q) → AuthOp Reply}

/-- A request that is about to write has not written. -/
theorem Allowed.unsent {key : List UInt8} {value : JsString} {ttl : ℕ} {log : List Seen}
    (hg : Allowed verify cfg req log (.set key value ttl)) {key' : List UInt8} {value' : JsString}
    {time : ℕ} : .sent key' value' time ∉ log := by
  obtain ⟨bytes, rest, space, text, rfl, hidle, -⟩ := hg
  intro hsent
  rcases List.mem_cons.mp hsent with heq | hmem
  · cases heq
  · cases hidle _ hmem

/-- A value that is about to be written was not sent before. -/
theorem Once.not_sent (honce : Once c) (h : Tracked verify cfg c) {key : List UInt8}
    {value : JsString} {ttl : ℕ} (hg : Allowed verify cfg req (c.own i) (.set key value ttl))
    (j time : ℕ) : .sent key value time ∉ c.own j := by
  intro hsent
  have hunsent : .sent key value time ∉ c.own i := hg.unsent
  obtain ⟨bytes, rest, space, text, hlog, -, hkey, -, hback⟩ := hg
  obtain ⟨space', text', hkey', bytes', req', -, hback', hdrew', -⟩ := h.sent hsent
  obtain ⟨rfl, htext⟩ := Space.key_inj (hkey.symm.trans hkey')
  obtain rfl := hback.bytes_eq hback' htext
  have hdrew : .drew bytes ∈ c.own i := by
    rw [hlog]
    exact List.mem_cons_self
  obtain rfl := honce.draws hdrew hdrew'
  exact hunsent hsent

/-- A consumed value is gone. -/
theorem Once.gone (honce : Once c) (h : Tracked verify cfg c) {key : List UInt8}
    {value : JsString} {j time : ℕ} (hmem : .consumed key value time ∈ c.own j) :
    c.store.redis.get key ≠ some value := fun hget =>
  h.kept.lawful.not_held_of_used (honce.writes key value) (h.consumed hmem).2
    (h.kept.holds hget)

/-- What was done once depends on the store and the logs alone. -/
theorem Once.same {c' : Server} (honce : Once c) (hstore : c'.store = c.store)
    (hown : ∀ i, c'.own i = c.own i) : Once c' where
  draws hi hj := honce.draws (hown _ ▸ hi) (hown _ ▸ hj)
  writes := by
    rw [hstore]
    exact honce.writes
  consumes hi hj := honce.consumes (hown _ ▸ hi) (hown _ ▸ hj)
  sends hi hj := honce.sends (hown _ ▸ hi) (hown _ ▸ hj)

/-- A call that draws fresh bytes keeps each value single. -/
theorem Once.answer (honce : Once c) (h : Tracked verify cfg c)
    (ht : c.threads[i]? = some ⟨req, .call q k, true⟩)
    (hg : Allowed verify cfg req (c.own i) q) (hfresh : DrawsFresh c (.run i env)) :
    Once (c.answer (credentials verify cfg) i env req q k) := by
  have hnext : c.next i = some q := Config.next_of_call ht
  have hused : ∀ {key value j time}, c.store.redis.get key = some value →
      .consumed key value time ∉ c.own j := fun hget hmem => honce.gone h hmem hget
  refine ⟨fun {j j' bytes} hj hj' => ?_, ?_, fun {j j' key value time time'} hj hj' => ?_,
    fun {j key value time key' value' time'} hj hj' => ?_⟩
  · rcases observed_of_answer hj with ⟨rfl, hobs⟩ | hold <;>
      rcases observed_of_answer hj' with ⟨rfl, hobs'⟩ | hold'
    · rfl
    · cases hobs with
      | drew hcall => exact absurd rfl (hfresh (hcall ▸ hnext) _ (Config.mem_own.mp hold'))
    · cases hobs' with
      | drew hcall => exact absurd rfl (hfresh (hcall ▸ hnext) _ (Config.mem_own.mp hold))
    · exact honce.draws hold hold'
  · have heffect : Effect c.store q (c.answer (credentials verify cfg) i env req q k).store :=
      exec_effect q env c.store
    intro key value
    generalize (c.answer (credentials verify cfg) i env req q k).store = s' at heffect
    cases heffect with
    | nothing => exact honce.writes key value
    | written key' value' ttl =>
      simp only [Redis.set]
      by_cases heq : Change.written key' value' = Change.written key value
      · obtain ⟨rfl, rfl⟩ := Change.written.inj heq
        rw [List.count_cons_self, List.count_eq_zero.mpr fun hmem => ?_]
        obtain ⟨j, time, hsent⟩ := h.kept.logged hmem
        exact honce.not_sent h hg j time hsent
      · rw [List.count_cons_of_ne heq]
        exact honce.writes key value
    | used q key' value' hcall hget =>
      simp only [Redis.del]
      rw [List.count_cons_of_ne (by simp)]
      exact honce.writes key value
    | created user hnew => exact honce.writes key value
    | elapsed seconds => exact honce.writes key value
  · rcases observed_of_answer hj with ⟨rfl, hobs⟩ | hold <;>
      rcases observed_of_answer hj' with ⟨rfl, hobs'⟩ | hold'
    · rfl
    · cases hobs with
      | consumed key value hget hs => exact absurd hold' (hused hget)
    · cases hobs' with
      | consumed key value hget hs => exact absurd hold (hused hget)
    · exact honce.consumes hold hold'
  · rcases observed_of_answer hj with ⟨rfl, hobs⟩ | hold <;>
      rcases observed_of_answer hj' with ⟨hji, hobs'⟩ | hold'
    · cases hobs with
      | sent key value ttl hcall =>
        subst hcall
        cases hobs' with
        | sent key' value' ttl' hcall' =>
          cases hcall'
          exact ⟨rfl, rfl⟩
    · cases hobs with
      | sent key value ttl hcall =>
        subst hcall
        exact absurd hold' hg.unsent
    · subst hji
      cases hobs' with
      | sent key' value' ttl hcall =>
        subst hcall
        exact absurd hold hg.unsent
    · exact honce.sends hold hold'

end Once

/-! ## Runs -/

section Runs

variable (verify) (cfg) in
/-- Every request is guarded at its own log. -/
abbrev Reached (c : Server) : Prop :=
  Config.Conforms (credentials verify cfg) (fun _ => True) (Allowed verify cfg) (Over verify) c

theorem extends_step (c : Server) (a : Action Env Request) :
    Extends c (c.step (credentials verify cfg) a) where
  own h := Config.mem_own_step h a
  request h := Config.reqOf_step h a

theorem extends_kill {c : Server} {i : ℕ} {t : Thread Answer AuthFailure Reply Request}
    (ht : c.threads[i]? = some t) : Extends c (c.kill i t) where
  own h := h
  request h := (Config.reqOf_kill ht _).trans h

variable (verify) (cfg) in
/-- Every run is guarded and tracked. -/
theorem reached (as : List (Action Env Request)) :
    Reached verify cfg (fresh.exec (credentials verify cfg) as) ∧
      Tracked verify cfg (fresh.exec (credentials verify cfg) as) :=
  Config.run_invariant prog_guarded (fun _ _ _ _ => trivial)
    (fun {c req} _ h _ => h.same (extends_step c (.start req)) rfl fun _ => rfl)
    (fun _ h _ ht hg => h.answer ht hg)
    (fun _ h _ ht => h.same (extends_kill ht) rfl fun _ => rfl) as
    (Config.conforms_init trivial) tracked_fresh (Config.along_true as)

theorem once_fresh : Once fresh :=
  ⟨nofun, fun _ _ => Nat.zero_le 1, nofun, nofun⟩

/-- A run that draws fresh bytes writes each value once. -/
theorem reached_once {as : List (Action Env Request)}
    (hfresh : Config.Along (credentials verify cfg) DrawsFresh fresh as) :
    Once (fresh.exec (credentials verify cfg) as) :=
  (Config.run_invariant (I := fun c => Tracked verify cfg c ∧ Once c) prog_guarded
    (fun _ _ _ _ => trivial)
    (fun {c req} _ h _ => ⟨h.1.same (extends_step c (.start req)) rfl fun _ => rfl,
      h.2.same rfl fun _ => rfl⟩)
    (fun _ h hfresh ht hg => ⟨h.1.answer ht hg, h.2.answer h.1 ht hg hfresh⟩)
    (fun _ h _ ht => ⟨h.1.same (extends_kill ht) rfl fun _ => rfl, h.2.same rfl fun _ => rfl⟩)
    as (Config.conforms_init trivial) ⟨tracked_fresh, once_fresh⟩ hfresh).2.2

end Runs

/-! ## Challenges -/

section Challenges

variable (verify) (cfg)

/-- Request `i` was accepted on the challenge : it consumed it after the key's signature
verified, and while it was valid since it was issued to the key in the flow. -/
def Accepted (c : Server) (i : ℕ) (flow : Flow) (publicKey challenge : JsString) : Prop :=
  ∃ signature displayName time,
    Proves verify c i flow publicKey signature displayName challenge time ∧
    ∃ j issuedAt, c.reqOf j = some (.issueChallenge flow publicKey) ∧
      .sent (flow.space.key publicKey) challenge issuedAt ∈ c.own j ∧
      issuedAt ≤ time ∧ time < issuedAt + cfg.challengeTtlSeconds

/-- The replies that need a proof of possession. -/
def Reply.proves : Reply → Bool
  | .session _ _ => true
  | .registered _ => true
  | _ => false

/-- A step that takes a challenge away is that of a request for another one, or of a request
whose signature of this one verifies. -/
def Keeps (c : Server) (a : Action Env Request) : Prop :=
  ∀ flow publicKey e, isPublicKeyHex publicKey = true →
    c.store.redis.entry (flow.space.key publicKey) = some e →
    (c.step (credentials verify cfg) a).store.redis.entry (flow.space.key publicKey) = some e ∨
      ∃ i env, a = .run i env ∧ (c.reqOf i = some (.issueChallenge flow publicKey) ∨
        ∃ req signature displayName, c.reqOf i = some req ∧
          Claims req flow publicKey signature displayName ∧
          Verifies verify flow publicKey signature displayName e.value)

variable {verify} {cfg} {c : Server}

/-- A public key has no surrogate. -/
theorem plain_of_isPublicKeyHex {s : JsString} (h : isPublicKeyHex s = true) :
    ∀ u ∈ s, isSurrogate u = false := by
  intro u hu
  have hhex := List.all_eq_true.mp (Bool.and_eq_true_iff.mp h).2 u hu
  refine plain_of_lt ?_
  unfold hexUnitValue at hhex
  by_contra hlarge
  rw [if_neg (by simp [isDigit]; omega), if_neg (by omega), if_neg (by omega)] at hhex
  cases hhex

/-- The key of a challenge tells its flow and its public key. -/
theorem flow_eq_of_key {flow flow' : Flow} {publicKey publicKey' : JsString}
    (hkey : isPublicKeyHex publicKey = true) (hkey' : isPublicKeyHex publicKey' = true)
    (h : flow.space.key publicKey = flow'.space.key publicKey') :
    flow = flow' ∧ publicKey = publicKey' := by
  obtain ⟨hspace, htext⟩ := Space.key_inj h
  refine ⟨?_, ?_⟩
  · cases flow <;> cases flow' <;> first | rfl | cases hspace
  · rw [toUtf8_eq_iff, toWellFormed_of_plain (plain_of_isPublicKeyHex hkey),
      toWellFormed_of_plain (plain_of_isPublicKeyHex hkey')] at htext
    exact htext

/-- A challenge is written by a request that issues one to the key. -/
theorem Backed.issues {log : List Seen} {bytes : Random} {req : Request} {space : Space}
    {text value : JsString} (h : Backed verify log bytes req space text value) {flow : Flow}
    {publicKey : JsString} (hkey : isPublicKeyHex publicKey = true)
    (hsame : flow.space.key publicKey = space.key text) :
    req = .issueChallenge flow publicKey ∧ space = flow.space := by
  cases h with
  | challenge flow' publicKey' hkey' =>
    obtain ⟨rfl, rfl⟩ := flow_eq_of_key hkey hkey' hsame
    exact ⟨rfl, rfl⟩
  | session =>
    obtain ⟨hspace, -⟩ := Space.key_inj hsame
    cases flow <;> cases hspace
  | wsTicket =>
    obtain ⟨hspace, -⟩ := Space.key_inj hsame
    cases flow <;> cases hspace

/-- A request that proves possession is accepted. -/
theorem Tracked.accepted (h : Tracked verify cfg c) {i : ℕ} {flow : Flow}
    {publicKey signature : JsString} {displayName : Option JsString} {challenge : JsString}
    {time : ℕ} (hp : Proves verify c i flow publicKey signature displayName challenge time) :
    Accepted verify cfg c i flow publicKey challenge := by
  obtain ⟨req, hreq, hclaims, hproved⟩ := hp
  obtain ⟨j, space, text, issuedAt, hkey, hwritten, hle, hlt⟩ := (h.consumed hproved.1).1
  obtain ⟨bytes, req', hreq', hback, -, hsent⟩ := hwritten
  obtain ⟨rfl, rfl⟩ := hback.issues hclaims.publicKey hkey
  refine ⟨signature, displayName, time, ⟨req, hreq, hclaims, hproved⟩, j, issuedAt, hreq', ?_, hle,
    ?_⟩
  · rw [hkey]
    exact hsent
  · cases flow <;> exact hlt

theorem Once.accepted_unique (honce : Once c) {i j : ℕ} {flow : Flow}
    {publicKey challenge : JsString} (hi : Accepted verify cfg c i flow publicKey challenge)
    (hj : Accepted verify cfg c j flow publicKey challenge) : i = j := by
  obtain ⟨_, _, _, ⟨_, _, _, hproved, _⟩, _⟩ := hi
  obtain ⟨_, _, _, ⟨_, _, _, hproved', _⟩, _⟩ := hj
  exact honce.consumes hproved hproved'

/-- What a reply that needs a proof of possession rests on. -/
theorem Reached.proves (hc : Reached verify cfg c) {i : ℕ} {req : Request}
    {reply : Reply} {live : Bool}
    (ht : c.threads[i]? = some ⟨req, .ret (.ok reply), live⟩) (hreply : reply.proves = true) :
    ∃ flow publicKey signature displayName challenge time,
      Proves verify c i flow publicKey signature displayName challenge time := by
  have hreq := Config.reqOf_of_thread ht
  have hover := hc.result ht
  cases reply with
  | session participantId sessionToken =>
    obtain ⟨user, signature, challenge, time, hclaims, -, -, hproved, -⟩ := hover
    exact ⟨_, _, _, _, challenge, time, req, hreq, hclaims, hproved⟩
  | registered user =>
    obtain ⟨signature, challenge, time, hclaims, hproved⟩ := hover
    exact ⟨_, _, _, _, challenge, time, req, hreq, hclaims, hproved⟩
  | issued => cases hreply
  | refused => cases hreply
  | participant => cases hreply
  | closed => cases hreply
  | done => cases hreply

/-- A session or a registration rests on one challenge, which no other request is accepted on. -/
theorem proofs_rest_on_challenges (verify : List UInt8 → List UInt8 → List UInt8 → Bool)
    (cfg : AuthConfig) (as : List (Action Env Request))
    (hfresh : Config.Along (credentials verify cfg) DrawsFresh fresh as) :
    let c := fresh.exec (credentials verify cfg) as
    ∀ i req reply live, c.threads[i]? = some ⟨req, .ret (.ok reply), live⟩ →
      reply.proves = true → ∃ flow publicKey challenge,
        Accepted verify cfg c i flow publicKey challenge ∧
          ∀ j, Accepted verify cfg c j flow publicKey challenge → j = i := by
  intro c i req reply live ht hreply
  obtain ⟨hc, htracked⟩ := reached verify cfg as
  obtain ⟨flow, publicKey, signature, displayName, challenge, time, hp⟩ :=
    Reached.proves hc ht hreply
  have haccepted := htracked.accepted hp
  exact ⟨flow, publicKey, challenge, haccepted,
    fun j hj => (reached_once hfresh).accepted_unique hj haccepted⟩

/-- The registration of the sample is accepted on its challenge. -/
theorem sample_registration_accepted : ∃ flow publicKey challenge,
    Accepted sampleVerify sampleConfig
      (fresh.exec (credentials sampleVerify sampleConfig) sampleRun) 1 flow publicKey challenge ∧
    ∀ j, Accepted sampleVerify sampleConfig
      (fresh.exec (credentials sampleVerify sampleConfig) sampleRun) j flow publicKey challenge →
      j = 1 :=
  proofs_rest_on_challenges sampleVerify sampleConfig sampleRun sampleRun_fresh 1
    (.register sampleKey sampleRegistration none) (.registered ⟨[0x75, 0x31], sampleKey, none⟩)
    true (by rw [sampleRun_threads]; rfl) rfl

/-- Every step takes away a challenge only as it may. -/
theorem Reached.keeps (hc : Reached verify cfg c) (a : Action Env Request) :
    Keeps verify cfg c a := by
  intro flow publicKey e hkey hentry
  rcases Config.step_cases (S := credentials verify cfg) (c := c) a with
    heq | ⟨req, rfl, heq⟩ | ⟨i, env, req, q, k, rfl, ht, heq⟩ | ⟨i, t, rfl, ht, heq⟩
  · exact Or.inl (by rw [heq]; exact hentry)
  · exact Or.inl hentry
  · rw [heq]
    have hg := hc.guard ht
    have hreq := Config.reqOf_of_thread ht
    have heffect : Effect c.store q (c.answer (credentials verify cfg) i env req q k).store :=
      exec_effect q env c.store
    generalize (c.answer (credentials verify cfg) i env req q k).store = s' at heffect ⊢
    cases heffect with
    | nothing => exact Or.inl hentry
    | written key value ttl =>
      by_cases hsame : flow.space.key publicKey = key
      · obtain ⟨bytes, rest, space, text, -, -, htext, -, hback⟩ := hg
        obtain ⟨rfl, -⟩ := hback.issues hkey (hsame.trans htext)
        exact Or.inr ⟨i, env, rfl, Or.inl hreq⟩
      · exact Or.inl ((Function.update_of_ne hsame _ _).trans hentry)
    | used q key value hcall hget =>
      by_cases hsame : flow.space.key publicKey = key
      · subst hsame
        obtain ⟨e', hentry', rfl, -⟩ := Redis.entry_of_get hget
        obtain rfl := Option.some.inj (hentry.symm.trans hentry')
        rcases hcall with rfl | rfl
        · obtain ⟨flow', publicKey', signature, displayName, hclaims, hsame, hverify⟩ := hg
          obtain ⟨rfl, rfl⟩ := flow_eq_of_key hkey hclaims.publicKey hsame
          exact Or.inr ⟨i, env, rfl, Or.inr ⟨req, signature, displayName, hreq, hclaims, hverify⟩⟩
        · obtain ⟨ticket, -, hsame⟩ := hg
          obtain ⟨hspace, -⟩ := Space.key_inj hsame
          cases flow <;> cases hspace
      · exact Or.inl ((Function.update_of_ne hsame _ _).trans hentry)
    | created user hnew => exact Or.inl hentry
    | elapsed seconds => exact Or.inl hentry
  · exact Or.inl (by rw [heq]; exact hentry)

/-- A request that does not prove possession takes no challenge away, whenever it runs. -/
theorem outstanding_challenge_kept (verify : List UInt8 → List UInt8 → List UInt8 → Bool)
    (cfg : AuthConfig) (as : List (Action Env Request)) :
    Config.Along (credentials verify cfg) (Keeps verify cfg) fresh as :=
  Config.run_along (I := fun _ => True) prog_guarded (fun _ _ _ _ => trivial)
    (fun _ _ _ => trivial) (fun _ _ _ _ _ => trivial) (fun _ _ _ _ => trivial)
    (fun hc _ _ => Reached.keeps hc _) (Config.conforms_init trivial) trivial (Config.along_true as)

/-- The key of another participant. -/
def sampleOtherKey : JsString := hexText (List.replicate 32 1)

/-- An enrolment, and another participant that is about to write its challenge. -/
def sampleIssuing : List (Action Env Request) :=
  enrolment 0 sampleKey sampleRegistration none sampleEnv ++
    [.start (.issueChallenge .login sampleOtherKey), .run 3 (sampleEnv 3)]

/-- The challenge of another key leaves the outstanding one in place. -/
theorem sample_challenge_kept :
    (((fresh.exec (credentials sampleVerify sampleConfig) sampleIssuing).step
      (credentials sampleVerify sampleConfig) (.run 3 (sampleEnv 3))).store.redis.entry
        (Flow.login.space.key sampleKey)) = some ⟨hexText (sampleEnv 2).bytes.val, 120⟩ := by
  obtain ⟨-, hkeeps⟩ := Config.along_append.mp (outstanding_challenge_kept sampleVerify
    sampleConfig (sampleIssuing ++ [.run 3 (sampleEnv 3)]))
  have hentry : (fresh.exec (credentials sampleVerify sampleConfig) sampleIssuing).store.redis.entry
      (Flow.login.space.key sampleKey) = some ⟨hexText (sampleEnv 2).bytes.val, 120⟩ := by
    decide +kernel
  have hreq : (fresh.exec (credentials sampleVerify sampleConfig) sampleIssuing).reqOf 3 =
      some (.issueChallenge .login sampleOtherKey) := by
    refine Config.reqOf_of_run ?_
    rw [sampleIssuing, enrolment]
    simp only [List.filterMap_append, Config.started_serve]
    rfl
  have hkeep := hkeeps.1 .login sampleKey _ isPublicKeyHex_sampleKey hentry
  rcases hkeep with hkept | ⟨i, env, heq, hissues | ⟨req, _, _, hreq', hclaims, -⟩⟩
  · exact hkept
  · obtain ⟨rfl, -⟩ := Action.run.inj heq
    have hsame := (Request.issueChallenge.inj (Option.some.inj (hreq.symm.trans hissues))).2
    exact absurd hsame (by decide)
  · obtain ⟨rfl, -⟩ := Action.run.inj heq
    obtain rfl := Option.some.inj (hreq.symm.trans hreq')
    cases hclaims

/-- A step that leaves the challenge of a key alone : it belongs neither to a request for another
challenge of the key nor to one that presents a signature of this challenge. -/
def Leaves (verify : List UInt8 → List UInt8 → List UInt8 → Bool) (flow : Flow)
    (publicKey challenge : JsString) (c : Server) : Action Env Request → Prop
  | .run i _ => c.reqOf i ≠ some (.issueChallenge flow publicKey) ∧
      ∀ req signature displayName, c.reqOf i = some req →
        Claims req flow publicKey signature displayName →
        ¬ Verifies verify flow publicKey signature displayName challenge
  | _ => True

/-- A step that leaves the challenge alone leaves it outstanding. -/
theorem Reached.leaves (hc : Reached verify cfg c) {flow : Flow}
    {publicKey : JsString} {e : Entry} (hkey : isPublicKeyHex publicKey = true)
    (hentry : c.store.redis.entry (flow.space.key publicKey) = some e) {a : Action Env Request}
    (ha : Leaves verify flow publicKey e.value c a) :
    (c.step (credentials verify cfg) a).store.redis.entry (flow.space.key publicKey) = some e := by
  rcases hc.keeps a flow publicKey e hkey hentry with
    hkept | ⟨i, env, rfl, hreq | ⟨req, signature, displayName, hreq, hclaims, hverify⟩⟩
  · exact hkept
  · exact absurd hreq ha.1
  · exact absurd hverify (ha.2 req signature displayName hreq hclaims)

/-- A run that leaves the challenge alone leaves it outstanding. -/
theorem Reached.leaves_run {flow : Flow} {publicKey : JsString} {e : Entry}
    (hkey : isPublicKeyHex publicKey = true) : ∀ {c : Server} {bs : List (Action Env Request)},
      Reached verify cfg c →
      c.store.redis.entry (flow.space.key publicKey) = some e →
      Config.Along (credentials verify cfg) (Leaves verify flow publicKey e.value) c bs →
      (c.exec (credentials verify cfg) bs).store.redis.entry (flow.space.key publicKey) = some e
  | _, [], _, hentry, _ => hentry
  | _, a :: _, hc, hentry, h => by
    rw [Config.exec_cons]
    exact Reached.leaves_run hkey (hc.step prog_guarded (fun _ _ _ _ => trivial) a)
      (hc.leaves hkey hentry h.1) h.2

/-- A registered participant that signs its outstanding challenge in time is logged in, whatever
the other requests between do. The login is served alone and its calls are answered. The rate
limit in front of the route is outside the model. -/
theorem login_beside_others (verify : List UInt8 → List UInt8 → List UInt8 → Bool)
    (cfg : AuthConfig) (as bs : List (Action Env Request)) (publicKey login : JsString) (e : Entry)
    (env : Env) (henv : env.fate = .answered) (hkey : isPublicKeyHex publicKey = true)
    (hlogin : login ≠ [])
    (hissued : (fresh.exec (credentials verify cfg) as).store.redis.entry
      (Space.challenge.key publicKey) = some e)
    (hleaves : Config.Along (credentials verify cfg) (Leaves verify .login publicKey e.value)
      (fresh.exec (credentials verify cfg) as) bs)
    (htime : (fresh.exec (credentials verify cfg) (as ++ bs)).store.redis.now < e.expiresAt)
    (huser : ∃ user ∈ (fresh.exec (credentials verify cfg) (as ++ bs)).store.users,
      user.publicKey = publicKey)
    (hsigned : Verifies verify .login publicKey login none e.value) :
    let c := fresh.exec (credentials verify cfg) (as ++ bs)
    ∃ user ∈ c.store.users, user.publicKey = publicKey ∧
      (c.exec (credentials verify cfg) (Config.serve c.threads.length
        (.authenticate publicKey login) 5 env)).threads = c.threads ++
          [⟨.authenticate publicKey login,
            .ret (.ok (.session user.id (hexText env.bytes.val))), true⟩] := by
  intro c
  obtain ⟨hc, htracked⟩ := reached verify cfg as
  have hentry : c.store.redis.entry (Flow.login.space.key publicKey) = some e := by
    rw [show c = (fresh.exec (credentials verify cfg) as).exec (credentials verify cfg) bs from
      Config.exec_append as bs]
    exact Reached.leaves_run hkey hc hissued hleaves
  have hget : c.store.redis.get (Flow.login.space.key publicKey) = some e.value := by
    rw [Redis.get, hentry]
    exact if_pos htime
  have hchallenge : e.value ≠ [] := by
    obtain ⟨i, space, text, sentAt, hspace, ⟨bytes, req, -, hback, -⟩, -⟩ :=
      htracked.kept.entries hissued
    rcases hback.token with ⟨-, hvalue⟩ | ⟨hs, -⟩
    · rw [hvalue]
      exact hexText_ne_nil bytes
    · obtain ⟨rfl, -⟩ := Space.key_inj hspace
      rcases hs with hs | hs <;> cases hs
  obtain ⟨user, hfound⟩ : ∃ user, c.store.users.find? (fun u => u.publicKey = publicKey) =
      some user := by
    obtain ⟨user, hmem, hpublicKey⟩ := huser
    exact Option.isSome_iff_exists.mp
      (List.find?_isSome.mpr ⟨user, hmem, by simpa using hpublicKey⟩)
  have hpublicKey : user.publicKey = publicKey := by simpa using List.find?_some hfound
  exact ⟨user, List.mem_of_find?_eq_some hfound, hpublicKey, (serve_runs rfl
    (authenticate_runs verify cfg henv hkey hlogin hfound hget hchallenge hsigned)).2⟩

/-- Another participant asks for a challenge between. -/
def sampleBetween : List (Action Env Request) :=
  Config.serve 3 (.issueChallenge .login sampleOtherKey) 5 (sampleEnv 3)

/-- The sample is logged in although another challenge is issued between. -/
theorem sample_login_beside_others :
    let c := fresh.exec (credentials sampleVerify sampleConfig)
      (enrolment 0 sampleKey sampleRegistration none sampleEnv ++ sampleBetween)
    ∃ user ∈ c.store.users, user.publicKey = sampleKey ∧
      (c.exec (credentials sampleVerify sampleConfig) (Config.serve c.threads.length
        (.authenticate sampleKey sampleLogin) 5 (sampleEnv 4))).threads = c.threads ++
          [⟨.authenticate sampleKey sampleLogin,
            .ret (.ok (.session user.id (hexText (sampleEnv 4).bytes.val))), true⟩] := by
  have hempty : fresh.threads.length = 0 := rfl
  obtain ⟨hthreads, husers, hnow, hentry⟩ := enrolment_completes sampleVerify
    sampleConfig fresh (fun k => (rfl : (sampleEnv k).fate = .answered)) (by decide)
    isPublicKeyHex_sampleKey (by decide) (fun _ h => by cases h) sampleRegistration_verifies
  rw [hempty] at hthreads husers hnow hentry
  generalize hc : fresh.exec (credentials sampleVerify sampleConfig)
    (enrolment 0 sampleKey sampleRegistration none sampleEnv) = c at hthreads husers hnow hentry
  have hlength : c.threads.length = 3 := by rw [hthreads]; rfl
  have hother : isPublicKeyHex sampleOtherKey = true := by decide
  have hne : sampleOtherKey ≠ sampleKey := by decide
  obtain ⟨hstore, -⟩ := serve_runs hlength (issueChallenge_runs sampleVerify sampleConfig
    (s := c.store) (rfl : (sampleEnv 3).fate = .answered) hother .login)
  refine login_beside_others sampleVerify sampleConfig
    (enrolment 0 sampleKey sampleRegistration none sampleEnv) sampleBetween sampleKey
    sampleLogin ⟨hexText (sampleEnv 2).bytes.val, 120⟩ (sampleEnv 4) rfl isPublicKeyHex_sampleKey
    (by decide) ?_ ?_ ?_ ?_ sampleLogin_verifies
  · rw [hc, hentry]
    rfl
  · rw [hc]
    refine Config.along_serve hlength trivial fun c' hreq => ⟨?_, ?_⟩
    · rw [hreq]
      intro heq
      exact hne (Request.issueChallenge.inj (Option.some.inj heq)).2
    · intro req signature displayName hreq' hclaims
      obtain rfl := Option.some.inj (hreq.symm.trans hreq')
      cases hclaims
  · rw [Config.exec_append, hc, sampleBetween, hstore]
    exact hnow.trans_lt (by decide)
  · rw [Config.exec_append, hc, sampleBetween, hstore]
    exact ⟨_, husers ▸ List.mem_cons_self, rfl⟩

/-- Each user proved possession of the key by signing the name of the row with a challenge
that was valid. A key is a hex text here, and its two letter cases can be two users. -/
theorem registered_with_proof (verify : List UInt8 → List UInt8 → List UInt8 → Bool)
    (cfg : AuthConfig) (as : List (Action Env Request)) :
    let c := fresh.exec (credentials verify cfg) as
    ∀ user ∈ c.store.users, ∃ i signature challenge time,
      Proves verify c i .registration user.publicKey signature user.displayName challenge time ∧
      Accepted verify cfg c i .registration user.publicKey challenge := by
  obtain ⟨-, htracked⟩ := reached verify cfg as
  intro c user huser
  obtain ⟨i, signature, challenge, time, hp⟩ := htracked.kept.rows huser
  exact ⟨i, signature, challenge, time, hp, htracked.accepted hp⟩

end Challenges

end Sails.Auth
