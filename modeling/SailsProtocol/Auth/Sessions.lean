import SailsProtocol.Auth.Challenges

/-!
# Sessions and tickets

`session_authentic` : whoever acts for a participant holds a token of a session that is not
expired, and the session was given to a request that was accepted on a login challenge of the
participant's key. `ticket_opens_one_socket` : a ticket opens one socket at most, for the
participant whose session it was issued under. `spent_values_stay_spent` : a challenge or a
ticket that is replaced, consumed or expired is not consumed later.
-/

namespace Sails.Auth

open Async Text Identity
open Async.SingleUse (Change Lawful held)

variable {verify : List UInt8 → List UInt8 → List UInt8 → Bool} {cfg : AuthConfig}

/-! ## What sessions and tickets are written for -/

section Backing

variable {log : List Seen} {bytes : Random} {req : Request} {space : Space}
variable {text value : JsString}

/-- A session was written for a user that proved possession. -/
theorem Backed.login (h : Backed verify log bytes req space text value)
    (hspace : space = .session) : ∃ user signature challenge time, value = user.id ∧
      Claims req .login user.publicKey signature none ∧ .found user ∈ log ∧
      Proved verify .login user.publicKey signature none challenge time log := by
  cases h with
  | challenge flow publicKey hkey => cases flow <;> cases hspace
  | session _ user signature challenge time hclaims hfound hproved =>
    exact ⟨user, signature, challenge, time, rfl, hclaims, hfound, hproved⟩
  | wsTicket => cases hspace

theorem Backed.ticket (h : Backed verify log bytes req space text value)
    (hspace : space = .wsTicket) : ∃ authorization time, req = .wsTicket authorization ∧
      Authorized authorization value time log := by
  cases h with
  | challenge flow publicKey hkey => cases flow <;> cases hspace
  | session => cases hspace
  | wsTicket authorization participantId time hread => exact ⟨authorization, time, rfl, hread⟩

end Backing

/-! ## Sessions -/

section Sessions

variable (verify) (cfg)

/-- The token is that of a session which is valid at the time and was given to a registered user
accepted on a login challenge. -/
def LoggedIn (c : Server) (participantId token : JsString) (time : ℕ) : Prop :=
  ∃ user ∈ c.store.users, user.id = participantId ∧ ∃ i challenge sentAt,
    Accepted verify cfg c i .login user.publicKey challenge ∧
    .sent (Space.session.key token) participantId sentAt ∈ c.own i ∧
    sentAt ≤ time ∧ time < sentAt + cfg.sessionTtlSeconds

variable {verify} {cfg} {c : Server}

/-- A session token that was read is that of a login. -/
theorem Tracked.loggedIn (h : Tracked verify cfg c) {i : ℕ} {participantId token : JsString}
    {time : ℕ} (hread : .read (Space.session.key token) participantId time ∈ c.own i) :
    LoggedIn verify cfg c participantId token time := by
  obtain ⟨j, space, text, sentAt, hkey, hwritten, hle, hlt⟩ := h.read hread
  obtain ⟨bytes, req, hreq, hback, -, hsent⟩ := hwritten
  obtain ⟨hspace, -⟩ := Space.key_inj hkey
  obtain ⟨user, signature, challenge, provedAt, rfl, hclaims, hfound, hproved⟩ :=
    hback.login hspace.symm
  refine ⟨user, h.found hfound, rfl, j, challenge, sentAt,
    h.accepted ⟨req, hreq, hclaims, hproved⟩, ?_, hle, ?_⟩
  · rw [hkey]
    exact hsent
  · rw [← hspace] at hlt
    exact hlt

/-- Whoever is authorized holds the token of a login, which was valid when it was read. -/
theorem session_authentic (verify : List UInt8 → List UInt8 → List UInt8 → Bool)
    (cfg : AuthConfig) (as : List (Action Env Request)) :
    let c := fresh.exec (credentials verify cfg) as
    ∀ (i : ℕ) (authorization : Option JsString) (participantId : JsString) (live : Bool),
      c.threads[i]? = some ⟨.authorized authorization, .ret (.ok (.participant participantId)),
        live⟩ →
      ∃ token time, bearerToken authorization = some token ∧
        .read (Space.session.key token) participantId time ∈ c.own i ∧
        LoggedIn verify cfg c participantId token time := by
  intro c i authorization participantId live ht
  obtain ⟨hc, htracked⟩ := reached verify cfg as
  rcases hc.result ht with ⟨authorization', time, heq, hread⟩ | ⟨ticket, time, heq, -⟩
  · cases heq
    obtain ⟨token, htoken, hmem⟩ := hread
    exact ⟨token, time, htoken, hmem, htracked.loggedIn hmem⟩
  · cases heq

/-- The sample, and a request of its session. -/
def sampleActing : List (Action Env Request) :=
  sampleRun ++
    Config.serve 6 (.authorized (some (bearer (hexText (sampleEnv 3).bytes.val)))) 5 (sampleEnv 6)

/-- The participant of the sample acts under the token of its login. -/
theorem sample_session_authentic :
    let c := fresh.exec (credentials sampleVerify sampleConfig) sampleActing
    ∃ token time, bearerToken (some (bearer (hexText (sampleEnv 3).bytes.val))) = some token ∧
      .read (Space.session.key token) [0x75, 0x31] time ∈ c.own 6 ∧
      LoggedIn sampleVerify sampleConfig c [0x75, 0x31] token time := by
  have hreq : (sampleActing.filterMap Action.started)[6]? =
      some (.authorized (some (bearer (hexText (sampleEnv 3).bytes.val)))) := rfl
  have hr : (fresh.exec (credentials sampleVerify sampleConfig) sampleActing).result? 6 =
      some (.ok (.participant [0x75, 0x31])) := by decide +kernel
  obtain ⟨live, ht⟩ := Config.thread_of_run hreq hr
  exact session_authentic sampleVerify sampleConfig sampleActing 6 _ [0x75, 0x31] live ht

end Sessions

/-! ## Tickets -/

section Tickets

variable {c : Server}

/-- A ticket has one key and one value. -/
theorem Once.ticket_value (honce : Once c) {i j : ℕ} {text text' value value' : JsString}
    {time time' : ℕ} (hi : Written verify c i .wsTicket text value time)
    (hj : Written verify c j .wsTicket text' value' time')
    (htext : toUtf8 text = toUtf8 text') : value = value' := by
  obtain ⟨bytes, req, -, hback, hdrew, hsent⟩ := hi
  obtain ⟨bytes', req', -, hback', hdrew', hsent'⟩ := hj
  have hbytes : bytes = bytes' := by
    rcases hback.token with ⟨hspace, -⟩ | ⟨-, htoken⟩
    · rcases hspace with hs | hs <;> cases hs
    rcases hback'.token with ⟨hspace, -⟩ | ⟨-, htoken'⟩
    · rcases hspace with hs | hs <;> cases hs
    rw [htoken, htoken', toUtf8_eq_iff, toWellFormed_of_plain fun _ => plain_of_mem_hexText,
      toWellFormed_of_plain fun _ => plain_of_mem_hexText] at htext
    exact Subtype.ext (hexText_injective htext)
  subst hbytes
  obtain rfl := honce.draws hdrew hdrew'
  exact (honce.sends hsent hsent').2

/-- Two requests that consumed one ticket are the same. -/
theorem Once.ticket_unique (honce : Once c) (h : Tracked verify cfg c) {i j : ℕ}
    {ticket value value' : JsString} {time time' : ℕ}
    (hi : .consumed (Space.wsTicket.key ticket) value time ∈ c.own i)
    (hj : .consumed (Space.wsTicket.key ticket) value' time' ∈ c.own j) : i = j := by
  obtain ⟨_, space, text, _, hkey, hwritten, -⟩ := (h.consumed hi).1
  obtain ⟨_, space', text', _, hkey', hwritten', -⟩ := (h.consumed hj).1
  obtain ⟨rfl, htext⟩ := Space.key_inj hkey
  obtain ⟨rfl, htext'⟩ := Space.key_inj hkey'
  obtain rfl := honce.ticket_value hwritten hwritten' (htext.symm.trans htext')
  exact honce.consumes hi hj

/-- A request that opens a socket consumed its ticket. -/
theorem Reached.opened (hc : Reached verify cfg c) {i : ℕ}
    {ticket participantId : JsString} {live : Bool}
    (ht : c.threads[i]? = some ⟨.openSocket (some ticket),
      .ret (.ok (.participant participantId)), live⟩) :
    ∃ time, .consumed (Space.wsTicket.key ticket) participantId time ∈ c.own i := by
  rcases hc.result ht with ⟨authorization, time, heq, -⟩ | ⟨ticket', time, heq, hmem⟩
  · cases heq
  · cases heq
    exact ⟨time, hmem⟩

/-- A ticket opens one socket, while it is valid and for the participant whose session it was
issued under. -/
theorem ticket_opens_one_socket (verify : List UInt8 → List UInt8 → List UInt8 → Bool)
    (cfg : AuthConfig) (as : List (Action Env Request))
    (hfresh : Config.Along (credentials verify cfg) DrawsFresh fresh as) :
    let c := fresh.exec (credentials verify cfg) as
    ∀ (i : ℕ) (ticket participantId : JsString) (live : Bool),
      c.threads[i]? = some ⟨.openSocket (some ticket), .ret (.ok (.participant participantId)),
        live⟩ →
      (∃ j authorization token issuedAt openedAt,
        .consumed (Space.wsTicket.key ticket) participantId openedAt ∈ c.own i ∧
        c.reqOf j = some (.wsTicket authorization) ∧ bearerToken authorization = some token ∧
        .sent (Space.wsTicket.key ticket) participantId issuedAt ∈ c.own j ∧
        issuedAt ≤ openedAt ∧ openedAt < issuedAt + cfg.wsTicketTtlSeconds ∧
        ∃ readAt, .read (Space.session.key token) participantId readAt ∈ c.own j ∧
          LoggedIn verify cfg c participantId token readAt) ∧
      ∀ (i' : ℕ) (participantId' : JsString) (live' : Bool),
        c.threads[i']? = some ⟨.openSocket (some ticket),
          .ret (.ok (.participant participantId')), live'⟩ → i' = i := by
  intro c i ticket participantId live ht
  obtain ⟨hc, htracked⟩ := reached verify cfg as
  obtain ⟨openedAt, hconsumed⟩ := Reached.opened hc ht
  refine ⟨?_, fun i' participantId' live' ht' => ?_⟩
  · obtain ⟨j, space, text, issuedAt, hkey, hwritten, hle, hlt⟩ :=
      (htracked.consumed hconsumed).1
    obtain ⟨bytes, req, hreq, hback, -, hsent⟩ := hwritten
    obtain ⟨rfl, -⟩ := Space.key_inj hkey
    obtain ⟨authorization, readAt, rfl, token, htoken, hread⟩ := hback.ticket rfl
    rw [← hkey] at hsent
    exact ⟨j, authorization, token, issuedAt, openedAt, hconsumed, hreq, htoken, hsent, hle, hlt,
      readAt, hread, htracked.loggedIn hread⟩
  · obtain ⟨time', hconsumed'⟩ := Reached.opened hc ht'
    exact (reached_once hfresh).ticket_unique htracked hconsumed' hconsumed

/-- The ticket of the sample opens one socket. -/
theorem sample_ticket_opens_one_socket :
    let c := fresh.exec (credentials sampleVerify sampleConfig) sampleRun
    let ticket := hexText (sampleEnv 4).bytes.val
    (∃ j authorization token issuedAt openedAt,
      .consumed (Space.wsTicket.key ticket) [0x75, 0x31] openedAt ∈ c.own 5 ∧
      c.reqOf j = some (.wsTicket authorization) ∧ bearerToken authorization = some token ∧
      .sent (Space.wsTicket.key ticket) [0x75, 0x31] issuedAt ∈ c.own j ∧
      issuedAt ≤ openedAt ∧ openedAt < issuedAt + 30 ∧
      ∃ readAt, .read (Space.session.key token) [0x75, 0x31] readAt ∈ c.own j ∧
        LoggedIn sampleVerify sampleConfig c [0x75, 0x31] token readAt) ∧
    ∀ (i' : ℕ) (participantId' : JsString) (live' : Bool),
      c.threads[i']? = some ⟨.openSocket (some ticket),
        .ret (.ok (.participant participantId')), live'⟩ → i' = 5 :=
  ticket_opens_one_socket sampleVerify sampleConfig sampleRun sampleRun_fresh 5
    (hexText (sampleEnv 4).bytes.val) [0x75, 0x31] true (by rw [sampleRun_threads]; rfl)

end Tickets

/-! ## Spent values -/

section Spent

/-- The value was sent and is not there : it was replaced or consumed, it expired, or it never
reached the store. Since then it was not consumed by a request that had not consumed it. -/
structure Spent (c₀ : Server) (key : List UInt8) (value : JsString) (c : Server) : Prop where
  sent : ∃ i time, .sent key value time ∈ c.own i
  gone : c.store.redis.get key ≠ some value
  past : ∀ {i time}, .consumed key value time ∈ c.own i → .consumed key value time ∈ c₀.own i

variable {c₀ c : Server} {key : List UInt8} {value : JsString}

/-- What is spent depends on the store and the logs alone. -/
theorem Spent.same {c' : Server} (hspent : Spent c₀ key value c) (hstore : c'.store = c.store)
    (hown : ∀ i, c'.own i = c.own i) : Spent c₀ key value c' where
  sent := by
    obtain ⟨i, time, hsent⟩ := hspent.sent
    exact ⟨i, time, by rw [hown]; exact hsent⟩
  gone := by
    rw [hstore]
    exact hspent.gone
  past hm := hspent.past (hown _ ▸ hm)

/-- A call leaves a spent value spent. -/
theorem Spent.answer (hspent : Spent c₀ key value c) (h : Tracked verify cfg c)
    (honce : Once c) {i : ℕ} {env : Env} {req : Request} {q : Call}
    {k : Except AuthFailure (Answer q) → AuthOp Reply}
    (hg : Allowed verify cfg req (c.own i) q) :
    Spent c₀ key value (c.answer (credentials verify cfg) i env req q k) := by
  obtain ⟨j, time, hsent⟩ := hspent.sent
  refine ⟨⟨j, time, Config.mem_own_answer hsent⟩, ?_, fun hm => ?_⟩
  · have heffect : Effect c.store q (c.answer (credentials verify cfg) i env req q k).store :=
      exec_effect q env c.store
    generalize (c.answer (credentials verify cfg) i env req q k).store = s' at heffect ⊢
    intro hget
    obtain ⟨e, hentry, hvalue, hlive⟩ := Redis.entry_of_get hget
    have hgone : ∀ {s : Redis}, s.entry key = some e → s.now < e.expiresAt →
        s.get key = some value := by
      intro s hs hlive
      rw [Redis.get, hs]
      simp only [hlive, if_true, hvalue]
    cases heffect with
    | nothing => exact hspent.gone hget
    | written key' value' ttl =>
      by_cases hsame : key = key'
      · subst hsame
        simp only [Redis.set, Function.update_self, Option.some.injEq] at hentry
        subst hentry
        subst hvalue
        exact honce.not_sent h hg j time hsent
      · simp only [Redis.set, Function.update_of_ne hsame] at hentry
        exact hspent.gone (hgone hentry hlive)
    | used q key' value' hcall hget' =>
      by_cases hsame : key = key'
      · subst hsame
        simp [Redis.del] at hentry
      · simp only [Redis.del, Function.update_of_ne hsame] at hentry
        exact hspent.gone (hgone hentry hlive)
    | created user hnew => exact hspent.gone hget
    | elapsed seconds => exact hspent.gone (hgone hentry (by dsimp only at hlive; omega))
  · rcases observed_of_answer hm with ⟨rfl, hobs⟩ | hold
    · cases hobs with
      | consumed key value hget hstore => exact absurd hget hspent.gone
    · exact hspent.past hold

/-- A challenge or a ticket that was sent and is not valid any more is not consumed later,
whatever the later requests are. -/
theorem spent_values_stay_spent (verify : List UInt8 → List UInt8 → List UInt8 → Bool)
    (cfg : AuthConfig) (as as' : List (Action Env Request)) (key : List UInt8) (value : JsString)
    (hfresh : Config.Along (credentials verify cfg) DrawsFresh fresh (as ++ as'))
    (hsent : ∃ i time, .sent key value time ∈ (fresh.exec (credentials verify cfg) as).own i)
    (hgone : (fresh.exec (credentials verify cfg) as).store.redis.get key ≠ some value) :
    ∀ i time, .consumed key value time ∈
        (fresh.exec (credentials verify cfg) (as ++ as')).own i →
      .consumed key value time ∈ (fresh.exec (credentials verify cfg) as).own i := by
  obtain ⟨hfirst, hrest⟩ := Config.along_append.mp hfresh
  obtain ⟨hc, htracked⟩ := reached verify cfg as
  have hrun := Config.run_invariant (S := credentials verify cfg)
    (I := fun c => (Tracked verify cfg c ∧ Once c) ∧
      Spent (fresh.exec (credentials verify cfg) as) key value c) prog_guarded
    (fun _ _ _ _ => trivial)
    (fun {c req} _ h _ => ⟨⟨h.1.1.same (extends_step c (.start req)) rfl fun _ => rfl,
      h.1.2.same rfl fun _ => rfl⟩, h.2.same rfl fun _ => rfl⟩)
    (fun _ h hfresh ht hg => ⟨⟨h.1.1.answer ht hg, h.1.2.answer h.1.1 ht hg hfresh⟩,
      h.2.answer h.1.1 h.1.2 hg⟩)
    (fun _ h _ ht => ⟨⟨h.1.1.same (extends_kill ht) rfl fun _ => rfl,
      h.1.2.same rfl fun _ => rfl⟩, h.2.same rfl fun _ => rfl⟩)
    as' hc ⟨⟨htracked, reached_once hfirst⟩, hsent, hgone, fun hm => hm⟩ hrest
  rw [Config.exec_append]
  exact fun i time => hrun.2.2.past

/-- The sample, and a second request with its ticket. -/
def sampleReplay : List (Action Env Request) :=
  Config.serve 6 (.openSocket (some (hexText (sampleEnv 4).bytes.val))) 5 (sampleEnv 6)

/-- The sample with its replay draws no bytes twice. -/
theorem sampleReplay_fresh : Config.Along (credentials sampleVerify sampleConfig) DrawsFresh fresh
    (sampleRun ++ sampleReplay) := by
  refine along_drawsFresh fun {i j env env'} hi hj hsame => ?_
  have hcalls : ∀ {i env}, .run i env ∈ sampleRun ++ sampleReplay → i < 7 ∧ env = sampleEnv i := by
    intro i env h
    rcases List.mem_append.mp h with h | h
    · obtain ⟨k, rfl, hk, rfl⟩ := eq_of_mem_handshake h
      rw [Nat.zero_add]
      exact ⟨by omega, rfl⟩
    · obtain ⟨rfl, rfl⟩ := Config.eq_of_mem_serve h
      exact ⟨by decide, rfl⟩
  obtain ⟨hi, rfl⟩ := hcalls hi
  obtain ⟨hj, rfl⟩ := hcalls hj
  exact sampleEnv_injective (by omega) (by omega) hsame

/-- The second request did not consume the ticket. -/
theorem sample_ticket_spent : ∃ time,
    .consumed (Space.wsTicket.key (hexText (sampleEnv 4).bytes.val)) [0x75, 0x31] time ∈
      (fresh.exec (credentials sampleVerify sampleConfig) sampleRun).own 5 := by
  obtain ⟨hc, htracked⟩ := reached sampleVerify sampleConfig sampleRun
  obtain ⟨key, hkey⟩ : ∃ key, Space.wsTicket.key (hexText (sampleEnv 4).bytes.val) = key :=
    ⟨_, rfl⟩
  have ht : (fresh.exec (credentials sampleVerify sampleConfig) sampleRun).threads[5]? =
      some ⟨.openSocket (some (hexText (sampleEnv 4).bytes.val)),
        .ret (.ok (.participant [0x75, 0x31])), true⟩ := by
    rw [sampleRun_threads]
    rfl
  obtain ⟨time, hconsumed⟩ := Reached.opened hc ht
  rw [hkey] at hconsumed ⊢
  have hsent := htracked.sent_of_consumed hconsumed
  have hgone := (reached_once sampleRun_fresh).gone htracked hconsumed
  have hlater : .consumed key [0x75, 0x31] time ∈ (fresh.exec
      (credentials sampleVerify sampleConfig) (sampleRun ++ sampleReplay)).own 5 := by
    rw [Config.exec_append]
    exact Config.mem_own_exec _ hconsumed
  exact ⟨time, spent_values_stay_spent sampleVerify sampleConfig sampleRun sampleReplay key
    [0x75, 0x31] sampleReplay_fresh hsent hgone 5 time hlater⟩

end Spent

end Sails.Auth
