import SailsProtocol.Async.Alone
import SailsProtocol.Auth.Credentials

/-!
# Registering, logging in and opening a socket

What each route does when its calls are answered and nothing comes between them
(`issueChallenge_runs` and its siblings). `handshake` is a participant that registers, logs in,
asks for a ticket and opens a socket, one request after the other, and `handshake_completes`
says that it is let in, from any server that has not registered the key.
-/

namespace Sails.Auth

open Async Text Identity
open Async.SingleUse (Change)

variable {verify : List UInt8 → List UInt8 → List UInt8 → Bool} {cfg : AuthConfig}

/-! ## Routes that run alone -/

section Alone

/-- The result of a request whose calls are all answered by `env`, and the store after it. -/
abbrev Request.alone (verify : List UInt8 → List UInt8 → List UInt8 → Bool) (cfg : AuthConfig)
    (req : Request) (env : Env) (s : Store) : Except AuthFailure Reply × Store :=
  (req.prog verify cfg).runAlone (fun q => q.exec env) s

variable {env : Env} {s : Store}

theorem exec_answered (henv : env.fate = .answered) (q : Call) (s : Store) :
    q.exec env s = q.run env s := by
  unfold Call.exec
  rw [henv]
  split_ifs <;> rfl

/-- The first call of a program that is answered. -/
theorem runAlone_await {α : Type} (henv : env.fate = .answered) {q : Call} {a : Answer q}
    {s' : Store} (hrun : q.run env s = (.ok a, s')) (f : Answer q → AuthOp α) :
    (await q >>= f).runAlone (fun q => q.exec env) s =
      (f a).runAlone (fun q => q.exec env) s' := by
  refine Prog.runAlone_perform_bind ?_ f
  rw [exec_answered henv, hrun]

theorem truthy_of_ne {t : JsString} (h : t ≠ []) : truthy (some t) = some t := by
  cases t with
  | nil => exact absurd rfl h
  | cons u t => rfl

theorem hexText_ne_nil (bytes : Random) : hexText bytes.val ≠ [] := by
  obtain ⟨bytes, hlength⟩ := bytes
  cases bytes with
  | nil => cases hlength
  | cons b bytes => exact List.cons_ne_nil _ _

variable (verify) (cfg) in
/-- A request for a challenge that runs alone. -/
theorem issueChallenge_runs (henv : env.fate = .answered) {publicKey : JsString}
    (hkey : isPublicKeyHex publicKey = true) (flow : Flow) :
    (Request.issueChallenge flow publicKey).alone verify cfg env s =
      (.ok (.issued (hexText env.bytes.val) cfg.challengeTtlSeconds),
        { s with
          redis := s.redis.set (flow.space.key publicKey) (hexText env.bytes.val)
            cfg.challengeTtlSeconds }) := by
  rw [Request.alone, Request.prog, Prog.runAlone_bind, Prog.runAlone_require, if_pos hkey]
  dsimp only
  have hissue : (issue flow cfg.challengeTtlSeconds publicKey).runAlone (fun q => q.exec env) s =
      (.ok (hexText env.bytes.val),
        { s with
          redis := s.redis.set (flow.space.key publicKey) (hexText env.bytes.val)
            cfg.challengeTtlSeconds }) := by
    rw [issue, runAlone_await henv rfl, runAlone_await henv rfl]
    rfl
  rw [Prog.runAlone_bind, hissue]
  rfl

/-- A proof of possession of a key whose challenge is outstanding is not refused. -/
theorem consumeProof_runs (henv : env.fate = .answered) {flow : Flow}
    {publicKey signature challenge : JsString} {displayName : Option JsString}
    (hget : s.redis.get (flow.space.key publicKey) = some challenge) (hchallenge : challenge ≠ [])
    (hverify : Verifies verify flow publicKey signature displayName challenge) :
    (consumeProof verify flow publicKey signature displayName).runAlone (fun q => q.exec env) s =
      (.ok none, { s with redis := s.redis.del (flow.space.key publicKey) challenge }) := by
  have hread : Call.run (.get (flow.space.key publicKey)) env s = (.ok (some challenge), s) := by
    rw [Call.run, hget]
  have hclaim : Call.run (.compareAndConsume (flow.space.key publicKey) challenge) env s =
      (.ok true, { s with redis := s.redis.del (flow.space.key publicKey) challenge }) := by
    rw [Call.run, Redis.compareAndConsume, if_pos hget]
  rw [consumeProof, runAlone_await henv hread, truthy_of_ne hchallenge]
  dsimp only
  rw [show detachedVerify verify (flow.message challenge displayName) (fromHex signature)
    (fromHex publicKey) = some true from hverify]
  dsimp only
  rw [runAlone_await henv hclaim, if_pos rfl]
  rfl

variable (verify) (cfg) in
/-- A registration that runs alone. -/
theorem register_runs (henv : env.fate = .answered) {publicKey signature challenge : JsString}
    {displayName : Option JsString} (hkey : isPublicKeyHex publicKey = true)
    (hsignature : signature ≠ [])
    (hnew : ∀ u ∈ s.users, u.publicKey ≠ publicKey ∧ u.id ≠ env.id)
    (hget : s.redis.get (Flow.registration.space.key publicKey) = some challenge)
    (hchallenge : challenge ≠ [])
    (hverify : Verifies verify .registration publicKey signature displayName challenge) :
    (Request.register publicKey signature displayName).alone verify cfg env s =
      (.ok (.registered ⟨env.id, publicKey, displayName⟩),
        ⟨s.redis.del (Flow.registration.space.key publicKey) challenge,
          ⟨env.id, publicKey, displayName⟩ :: s.users⟩) := by
  have hbody : (isPublicKeyHex publicKey && !signature.isEmpty) = true := by
    rw [hkey, Bool.true_and, Bool.not_eq_true', List.isEmpty_eq_false_iff]
    exact hsignature
  have hfind : Call.run (.findUser publicKey) env s = (.ok none, s) := by
    rw [Call.run, List.find?_eq_none.mpr fun u hu => by simpa using (hnew u hu).1]
  have hcreate : ∀ redis, Call.run (.createUser publicKey displayName) env ⟨redis, s.users⟩ =
      (.ok ⟨env.id, publicKey, displayName⟩,
        ⟨redis, ⟨env.id, publicKey, displayName⟩ :: s.users⟩) := by
    intro redis
    rw [Call.run, Store.createUser, if_neg]
    intro htaken
    obtain ⟨u, hu, htaken⟩ := List.any_eq_true.mp htaken
    rcases of_decide_eq_true htaken with h | h
    · exact (hnew u hu).1 h
    · exact (hnew u hu).2 h
  rw [Request.alone, Request.prog, Prog.runAlone_bind, Prog.runAlone_require, if_pos hbody]
  dsimp only
  rw [Auth.register, runAlone_await henv hfind]
  dsimp only
  rw [Prog.runAlone_bind, consumeProof_runs henv hget hchallenge hverify]
  dsimp only
  have hawait : (Prog.tryCatch (await (.createUser publicKey displayName)) fun err =>
      if err = .uniqueConstraint then throw alreadyRegistered else throw err).runAlone
        (fun q => q.exec env)
        ⟨s.redis.del (Flow.registration.space.key publicKey) challenge, s.users⟩ =
      (.ok ⟨env.id, publicKey, displayName⟩,
        ⟨s.redis.del (Flow.registration.space.key publicKey) challenge,
          ⟨env.id, publicKey, displayName⟩ :: s.users⟩) := by
    rw [await, Prog.perform, Prog.tryCatch, Prog.runAlone, exec_answered henv, hcreate]
    rfl
  rw [Prog.runAlone_bind, hawait]
  rfl

variable (verify) (cfg) in
/-- A login that runs alone. -/
theorem authenticate_runs (henv : env.fate = .answered) {publicKey signature challenge : JsString}
    {user : User} (hkey : isPublicKeyHex publicKey = true) (hsignature : signature ≠ [])
    (hfound : s.users.find? (fun u => u.publicKey = publicKey) = some user)
    (hget : s.redis.get (Flow.login.space.key publicKey) = some challenge)
    (hchallenge : challenge ≠ [])
    (hverify : Verifies verify .login publicKey signature none challenge) :
    (Request.authenticate publicKey signature).alone verify cfg env s =
      (.ok (.session user.id (hexText env.bytes.val)),
        { s with
          redis := (s.redis.del (Flow.login.space.key publicKey) challenge).set
            (Space.session.key (hexText env.bytes.val)) user.id cfg.sessionTtlSeconds }) := by
  have hbody : (isPublicKeyHex publicKey && !signature.isEmpty) = true := by
    rw [hkey, Bool.true_and, Bool.not_eq_true', List.isEmpty_eq_false_iff]
    exact hsignature
  have hfind : ∀ redis, Call.run (.findUser publicKey) env ⟨redis, s.users⟩ =
      (.ok (some user), ⟨redis, s.users⟩) := by
    intro redis
    rw [Call.run, hfound]
  rw [Request.alone, Request.prog, Prog.runAlone_bind, Prog.runAlone_require, if_pos hbody]
  dsimp only
  rw [verifySignedChallenge, Prog.runAlone_bind, consumeProof_runs henv hget hchallenge hverify]
  dsimp only
  rw [runAlone_await henv (hfind _)]
  dsimp only
  rw [runAlone_await henv rfl, runAlone_await henv rfl]
  rfl

/-- The participant of a valid session. -/
theorem requireAuth_runs (henv : env.fate = .answered) {authorization : Option JsString}
    {token participantId : JsString} (htoken : bearerToken authorization = some token)
    (hget : s.redis.get (Space.session.key token) = some participantId)
    (hid : participantId ≠ []) :
    (requireAuth authorization).runAlone (fun q => q.exec env) s = (.ok participantId, s) := by
  have hread : Call.run (.get (Space.session.key token)) env s = (.ok (some participantId), s) := by
    rw [Call.run, hget]
  rw [requireAuth, htoken, Prog.orThrow, Prog.runAlone_bind, Prog.runAlone_pure]
  dsimp only
  rw [runAlone_await henv hread, truthy_of_ne hid]
  rfl

variable (verify) (cfg) in
/-- A request for a ticket that runs alone. -/
theorem wsTicket_runs (henv : env.fate = .answered) {authorization : Option JsString}
    {token participantId : JsString} (htoken : bearerToken authorization = some token)
    (hget : s.redis.get (Space.session.key token) = some participantId)
    (hid : participantId ≠ []) :
    (Request.wsTicket authorization).alone verify cfg env s =
      (.ok (.issued (hexText env.bytes.val) cfg.wsTicketTtlSeconds),
        { s with
          redis := s.redis.set (Space.wsTicket.key (hexText env.bytes.val)) participantId
            cfg.wsTicketTtlSeconds }) := by
  rw [Request.alone, Request.prog, Prog.runAlone_bind, requireAuth_runs henv htoken hget hid]
  dsimp only
  rw [issueWsTicket, runAlone_await henv rfl, runAlone_await henv rfl]
  rfl

variable (verify) (cfg) in
/-- A socket that is opened alone. -/
theorem openSocket_runs (henv : env.fate = .answered) {ticket participantId : JsString}
    (hticket : ticket ≠ [])
    (hget : s.redis.get (Space.wsTicket.key ticket) = some participantId)
    (hid : participantId ≠ []) :
    (Request.openSocket (some ticket)).alone verify cfg env s =
      (.ok (.participant participantId),
        { s with redis := s.redis.del (Space.wsTicket.key ticket) participantId }) := by
  have htake : Call.run (.consume (Space.wsTicket.key ticket)) env s =
      (.ok (some participantId),
        { s with redis := s.redis.del (Space.wsTicket.key ticket) participantId }) := by
    rw [Call.run, Redis.consume, hget]
  rw [Request.alone, Request.prog, resolveParticipantFromTicket, truthy_of_ne hticket]
  dsimp only
  rw [runAlone_await henv htake, truthy_of_ne hid]
  rfl

end Alone

/-! ## Calls of a route -/

/-- A proof of possession makes two calls at most. -/
theorem consumeProof_short (flow : Flow) (publicKey signature : JsString)
    (displayName : Option JsString) :
    (consumeProof verify flow publicKey signature displayName).Short 2 := by
  refine Prog.Short.bind (n := 1) (fun stored => ?_) (Prog.short_perform 0 _)
  cases truthy stored with
  | none => exact Prog.short_pure 1 _
  | some challenge =>
    dsimp only
    cases detachedVerify verify (flow.message challenge displayName) (fromHex signature)
        (fromHex publicKey) with
    | none => exact Prog.short_pure 1 _
    | some valid =>
      cases valid
      · exact Prog.short_pure 1 _
      · refine Prog.Short.bind (n := 0) (fun claimed => ?_) (Prog.short_perform 0 _)
        cases claimed <;> exact Prog.short_pure 0 _

theorem requireAuth_short (authorization : Option JsString) :
    (requireAuth authorization).Short 1 :=
  Prog.Short.bind (n := 1) (fun _ => Prog.Short.bind (n := 0) (fun _ => Prog.short_orThrow 0 _ _)
    (Prog.short_perform 0 _)) (Prog.short_orThrow 0 _ _)

/-- Every route makes five calls at most. -/
theorem prog_short (req : Request) : (req.prog verify cfg).Short 5 := by
  cases req with
  | issueChallenge flow publicKey =>
    refine Prog.Short.bind (n := 5) (fun _ => ?_) (Prog.short_require 0 _ _)
    exact Prog.Short.bind (n := 3) (fun _ => Prog.short_pure 3 _)
      (Prog.Short.bind (n := 1) (fun _ => Prog.Short.bind (n := 0)
        (fun _ => Prog.short_pure 0 _) (Prog.short_perform 0 _)) (Prog.short_perform 0 _))
  | authenticate publicKey signature =>
    refine Prog.Short.bind (n := 5) (fun _ => ?_) (Prog.short_require 0 _ _)
    refine Prog.Short.bind (n := 3) (fun refusal => ?_) (consumeProof_short _ _ _ _)
    cases refusal with
    | some reason => exact Prog.short_pure 3 _
    | none =>
      refine Prog.Short.bind (n := 2) (fun found => ?_) (Prog.short_perform 0 _)
      cases found with
      | none => exact Prog.short_pure 2 _
      | some user =>
        exact Prog.Short.bind (n := 1) (fun _ => Prog.Short.bind (n := 0)
          (fun _ => Prog.short_pure 0 _) (Prog.short_perform 0 _)) (Prog.short_perform 0 _)
  | register publicKey signature displayName =>
    refine Prog.Short.bind (n := 5) (fun _ => ?_) (Prog.short_require 0 _ _)
    refine Prog.Short.bind (n := 4) (fun existing => ?_) (Prog.short_perform 0 _)
    cases existing with
    | some user => exact Prog.short_throw 4 _
    | none =>
      refine Prog.Short.bind (n := 2) (fun refusal => ?_) (consumeProof_short _ _ _ _)
      cases refusal with
      | some reason => exact Prog.short_throw 2 _
      | none =>
        refine Prog.Short.bind (n := 1) (fun _ => Prog.short_pure 1 _) (m := 1) ?_
        refine Prog.Short.tryCatch (n := 0) (fun err => ?_) (Prog.short_perform 0 _)
        split_ifs <;> exact Prog.short_throw 0 _
  | authorized authorization =>
    exact Prog.Short.bind (n := 4) (fun _ => Prog.short_pure 4 _) (requireAuth_short authorization)
  | wsTicket authorization =>
    refine Prog.Short.bind (n := 4) (fun _ => ?_) (requireAuth_short authorization)
    exact Prog.Short.bind (n := 3) (fun _ => Prog.Short.bind (n := 2)
      (fun _ => Prog.short_pure 2 _) (Prog.short_perform 0 _)) (Prog.short_perform 0 _)
  | openSocket ticket =>
    refine Prog.Short.bind (n := 4) (fun participantId => ?_) (m := 1) ?_
    · cases truthy participantId <;> exact Prog.short_pure 4 _
    · unfold resolveParticipantFromTicket
      cases truthy ticket with
      | none => exact Prog.short_pure 1 _
      | some text => exact Prog.short_perform 0 _
  | elapse seconds =>
    exact Prog.Short.bind (n := 4) (fun _ => Prog.short_pure 4 _) (Prog.short_perform 0 _)

/-! ## The bytes that are drawn -/

/-- The bytes drawn were not drawn before. -/
def DrawsFresh (c : Server) : Action Env Request → Prop
  | .run i env => c.next i = some .randomBytes → ∀ e ∈ c.trace, e.2 ≠ .drew env.bytes
  | _ => True

/-- The bytes drawn so far are those of the steps. -/
def Given (as : List (Action Env Request)) (c : Server) : Prop :=
  ∀ e ∈ c.trace, ∀ bytes, e.2 = .drew bytes → ∃ env, .run e.1 env ∈ as ∧ env.bytes = bytes

/-- Bytes are drawn by `randomBytes` only. -/
theorem mem_observe_drew {q : Call} {env : Env} {s : Store} {bytes : Random}
    (h : .drew bytes ∈ observe q s (q.exec env s).1) : q = .randomBytes ∧ bytes = env.bytes := by
  cases q with
  | randomBytes =>
    cases List.mem_singleton.mp h
    exact ⟨rfl, rfl⟩
  | set key value ttl => cases List.mem_singleton.mp h
  | get key =>
    rcases hr : (Call.exec (.get key) env s).1 with e | _ | value <;> rw [hr] at h
    · cases h
    · cases h
    · cases List.mem_singleton.mp h
  | compareAndConsume key expected =>
    rcases hr : (Call.exec (.compareAndConsume key expected) env s).1 with e | _ | _ <;>
      rw [hr] at h
    · cases h
    · cases h
    · cases List.mem_singleton.mp h
  | consume key =>
    rcases hr : (Call.exec (.consume key) env s).1 with e | _ | value <;> rw [hr] at h
    · cases h
    · cases h
    · cases List.mem_singleton.mp h
  | findUser publicKey =>
    rcases hr : (Call.exec (.findUser publicKey) env s).1 with e | _ | user <;> rw [hr] at h
    · cases h
    · cases h
    · cases List.mem_singleton.mp h
  | createUser publicKey displayName => cases h
  | elapse seconds => cases h

/-- A run in which no two requests are given the same bytes draws no bytes twice. -/
theorem along_drawsFresh {as : List (Action Env Request)}
    (hbytes : ∀ {i j env env'}, .run i env ∈ as → .run j env' ∈ as → env.bytes = env'.bytes →
      i = j) : Config.Along (credentials verify cfg) DrawsFresh fresh as := by
  have hall : Config.Along (credentials verify cfg) (fun _ a => True ∧ a ∈ as) fresh as :=
    (Config.along_true as).and_forall fun _ h => h
  refine Config.run_along (I := Given as) prog_guarded (fun _ _ _ _ => trivial)
    (fun _ h _ => h) (fun {c i env req q k} _ h ha _ _ => ?_) (fun _ h _ _ => h)
    (fun {c a} hc h ha => ?_) (Config.conforms_init trivial) (fun _ he => by cases he) hall
  · intro e he bytes hdrew
    rcases Config.mem_trace_answer (j := e.1) (o := e.2) he with ⟨hi, ho⟩ | hold
    · rw [hdrew] at ho
      obtain ⟨-, rfl⟩ := mem_observe_drew ho
      exact ⟨env, hi ▸ ha.2, rfl⟩
    · exact h e hold bytes hdrew
  · cases a with
    | start req => trivial
    | crash i => trivial
    | run i env =>
      intro hnext e he hdrew
      obtain ⟨env', hmem, hsame⟩ := h e he _ hdrew
      obtain rfl := hbytes hmem ha.2 hsame
      obtain ⟨req, k, ht⟩ := Config.call_of_next hnext
      have hidle : Idle (c.own e.1) := hc.guard ht
      have hown : .drew env.bytes ∈ c.own e.1 := Config.mem_own.mpr (by rw [← hdrew]; exact he)
      cases hidle _ hown

/-! ## A participant that is let in -/

section Handshake

/-- The `Authorization` header of a session. -/
def bearer (token : JsString) : JsString := js "Bearer " ++ token

theorem not_isSpace_of_mem_hexText {bytes : List UInt8} {u : UInt16} (h : u ∈ hexText bytes) :
    Wallet.isSpace u = false := by
  have hhex := isHexUnit_of_mem_hexText h
  simp only [isHexUnit, isDigit, Bool.or_eq_true, Bool.and_eq_true, decide_eq_true_eq] at hhex
  simp only [Wallet.isSpace, Bool.or_eq_false_iff, decide_eq_false_iff_not, List.mem_cons,
    List.not_mem_nil, or_false, Bool.and_eq_false_iff]
  omega

/-- The header of a token gives the token back. -/
theorem stripBearer_bearer {u : UInt16} (hu : Wallet.isSpace u = false) (t : JsString) :
    stripBearer (bearer (u :: t)) = u :: t := by
  have htag : js "Bearer " = [0x42, 0x65, 0x61, 0x72, 0x65, 0x72, 0x20] := by
    rw [js_ofList]
    decide
  have hlower : js "bearer" = [0x62, 0x65, 0x61, 0x72, 0x65, 0x72] := by
    rw [js_ofList]
    decide
  have hspace : Wallet.isSpace 0x20 = true := by decide
  have htake : (bearer (u :: t)).take 6 = [0x42, 0x65, 0x61, 0x72, 0x65, 0x72] := by
    rw [bearer, htag]
    rfl
  have hdrop : (bearer (u :: t)).drop 6 = 0x20 :: u :: t := by
    rw [bearer, htag]
    rfl
  rw [stripBearer, htake, hdrop, hlower, if_pos ⟨by decide, by simpa using hspace⟩]
  rw [List.dropWhile_cons_of_pos hspace, List.dropWhile_cons_of_neg (by simp [hu])]

/-- The header of a drawn token gives the token back. -/
theorem bearerToken_bearer (bytes : Random) :
    bearerToken (some (bearer (hexText bytes.val))) = some (hexText bytes.val) := by
  have hne := hexText_ne_nil bytes
  have hstrip : stripBearer (bearer (hexText bytes.val)) = hexText bytes.val := by
    cases htext : hexText bytes.val with
    | nil => exact absurd htext hne
    | cons u t =>
      have hmem : u ∈ hexText bytes.val := by
        rw [htext]
        exact List.mem_cons_self
      exact stripBearer_bearer (not_isSpace_of_mem_hexText hmem) t
  rw [bearerToken, Option.map_some, hstrip]
  exact truthy_of_ne hne

theorem Redis.get_set (r : Redis) (key : List UInt8) (value : JsString) {ttl : ℕ}
    (httl : 0 < ttl) : (r.set key value ttl).get key = some value := by
  rw [Redis.get, Redis.set]
  simp only [Function.update_self]
  exact if_pos (Nat.lt_add_of_pos_right httl)

/-- A participant registers and asks for a login challenge, from thread `i` on. -/
def enrolment (i : ℕ) (publicKey registration : JsString) (displayName : Option JsString)
    (env : ℕ → Env) : List (Action Env Request) :=
  Config.serve i (.issueChallenge .registration publicKey) 5 (env 0) ++
  (Config.serve (i + 1) (.register publicKey registration displayName) 5 (env 1) ++
  Config.serve (i + 2) (.issueChallenge .login publicKey) 5 (env 2))

/-- What a participant sends, one request after the other, from thread `i` on. -/
def handshake (i : ℕ) (publicKey registration login : JsString) (displayName : Option JsString)
    (env : ℕ → Env) : List (Action Env Request) :=
  enrolment i publicKey registration displayName env ++
  (Config.serve (i + 3) (.authenticate publicKey login) 5 (env 3) ++
  (Config.serve (i + 4) (.wsTicket (some (bearer (hexText (env 3).bytes.val)))) 5 (env 4) ++
  Config.serve (i + 5) (.openSocket (some (hexText (env 4).bytes.val))) 5 (env 5)))

/-- The calls of request `j` of a run are its own. -/
theorem eq_of_mem_handshake {i : ℕ} {publicKey registration login : JsString}
    {displayName : Option JsString} {env : ℕ → Env} {j : ℕ} {env' : Env}
    (h : .run j env' ∈ handshake i publicKey registration login displayName env) :
    ∃ k, j = i + k ∧ k < 6 ∧ env' = env k := by
  simp only [handshake, enrolment, List.mem_append] at h
  rcases h with (h | h | h) | h | h | h <;> obtain ⟨hj, henv⟩ := Config.eq_of_mem_serve h
  · exact ⟨0, hj, by decide, henv⟩
  · exact ⟨1, hj, by decide, henv⟩
  · exact ⟨2, hj, by decide, henv⟩
  · exact ⟨3, hj, by decide, henv⟩
  · exact ⟨4, hj, by decide, henv⟩
  · exact ⟨5, hj, by decide, henv⟩

theorem serve_runs {c : Server} {i : ℕ} {req : Request} {env : Env}
    {r : Except AuthFailure Reply} {s : Store} (hi : c.threads.length = i)
    (hrun : req.alone verify cfg env c.store = (r, s)) :
    (c.exec (credentials verify cfg) (Config.serve i req 5 env)).store = s ∧
      (c.exec (credentials verify cfg) (Config.serve i req 5 env)).threads =
        c.threads ++ [⟨req, .ret r, true⟩] :=
  Config.exec_serve env hi (prog_short req) hrun

/-- The threads of an enrolment that completes. -/
def enrolled (cfg : AuthConfig) (publicKey registration : JsString)
    (displayName : Option JsString) (env : ℕ → Env) :
    List (Thread Answer AuthFailure Reply Request) := [
  ⟨.issueChallenge .registration publicKey,
    .ret (.ok (.issued (hexText (env 0).bytes.val) cfg.challengeTtlSeconds)), true⟩,
  ⟨.register publicKey registration displayName,
    .ret (.ok (.registered ⟨(env 1).id, publicKey, displayName⟩)), true⟩,
  ⟨.issueChallenge .login publicKey,
    .ret (.ok (.issued (hexText (env 2).bytes.val) cfg.challengeTtlSeconds)), true⟩]

/-- The threads of a handshake that completes. -/
def letIn (cfg : AuthConfig) (publicKey registration login : JsString)
    (displayName : Option JsString) (env : ℕ → Env) :
    List (Thread Answer AuthFailure Reply Request) :=
  enrolled cfg publicKey registration displayName env ++ [
  ⟨.authenticate publicKey login,
    .ret (.ok (.session (env 1).id (hexText (env 3).bytes.val))), true⟩,
  ⟨.wsTicket (some (bearer (hexText (env 3).bytes.val))),
    .ret (.ok (.issued (hexText (env 4).bytes.val) cfg.wsTicketTtlSeconds)), true⟩,
  ⟨.openSocket (some (hexText (env 4).bytes.val)), .ret (.ok (.participant (env 1).id)), true⟩]

variable {publicKey registration login : JsString} {displayName : Option JsString}
variable {env : ℕ → Env}

variable (verify) (cfg) in
/-- A participant that signs its registration challenge is registered. -/
theorem enrolment_completes (c : Server) (henv : ∀ k, (env k).fate = .answered)
    (hchallengeTtl : 0 < cfg.challengeTtlSeconds) (hkey : isPublicKeyHex publicKey = true)
    (hregistration : registration ≠ [])
    (hnew : ∀ u ∈ c.store.users, u.publicKey ≠ publicKey ∧ u.id ≠ (env 1).id)
    (hproof : Verifies verify .registration publicKey registration displayName
      (hexText (env 0).bytes.val)) :
    let c' := c.exec (credentials verify cfg)
      (enrolment c.threads.length publicKey registration displayName env)
    c'.threads = c.threads ++ enrolled cfg publicKey registration displayName env ∧
      c'.store.users = ⟨(env 1).id, publicKey, displayName⟩ :: c.store.users ∧
      c'.store.redis.now = c.store.redis.now ∧
      c'.store.redis.entry (Space.challenge.key publicKey) =
        some ⟨hexText (env 2).bytes.val, c.store.redis.now + cfg.challengeTtlSeconds⟩ := by
  intro c'
  -- `c₀` to `c₂` are the servers after each of the requests
  obtain ⟨hs₀, ht₀⟩ := serve_runs rfl
    (issueChallenge_runs verify cfg (s := c.store) (henv 0) hkey .registration)
  obtain ⟨c₀, hc₀⟩ : ∃ c₀, c₀ = c.exec (credentials verify cfg) (Config.serve c.threads.length
    (.issueChallenge .registration publicKey) 5 (env 0)) := ⟨_, rfl⟩
  rw [← hc₀] at hs₀ ht₀
  have hl₁ : c₀.threads.length = c.threads.length + 1 := by
    rw [ht₀, List.length_append]
    rfl
  have hget₀ : c₀.store.redis.get (Flow.registration.space.key publicKey) =
      some (hexText (env 0).bytes.val) := by
    rw [hs₀]
    exact Redis.get_set _ _ _ hchallengeTtl
  have hnew₀ : ∀ u ∈ c₀.store.users, u.publicKey ≠ publicKey ∧ u.id ≠ (env 1).id := by
    rw [hs₀]
    exact hnew
  obtain ⟨hs₁, ht₁⟩ := serve_runs hl₁ (register_runs verify cfg (henv 1) hkey hregistration hnew₀
    hget₀ (hexText_ne_nil _) hproof)
  obtain ⟨c₁, hc₁⟩ : ∃ c₁, c₁ = c₀.exec (credentials verify cfg) (Config.serve
    (c.threads.length + 1) (.register publicKey registration displayName) 5 (env 1)) := ⟨_, rfl⟩
  rw [← hc₁] at hs₁ ht₁
  have hl₂ : c₁.threads.length = c.threads.length + 2 := by
    rw [ht₁, List.length_append, hl₁]
    rfl
  obtain ⟨hs₂, ht₂⟩ := serve_runs hl₂
    (issueChallenge_runs verify cfg (s := c₁.store) (henv 2) hkey .login)
  have hc' : c' = c₁.exec (credentials verify cfg) (Config.serve (c.threads.length + 2)
      (.issueChallenge .login publicKey) 5 (env 2)) := by
    rw [hc₁, hc₀, ← Config.exec_append, ← Config.exec_append]
    rfl
  rw [← hc'] at hs₂ ht₂
  refine ⟨?_, ?_, ?_, ?_⟩
  · rw [ht₂, ht₁, ht₀, enrolled]
    simp only [List.append_assoc, List.cons_append, List.nil_append]
  · rw [hs₂, hs₁, hs₀]
  · rw [hs₂, hs₁, hs₀]
    rfl
  · rw [hs₂, hs₁, hs₀]
    exact Function.update_self _ _ _

/-- A participant that signs both challenges is registered, logged in and gets its socket. -/
theorem handshake_completes (c : Server) (henv : ∀ k, (env k).fate = .answered)
    (hchallengeTtl : 0 < cfg.challengeTtlSeconds) (hsessionTtl : 0 < cfg.sessionTtlSeconds)
    (hticketTtl : 0 < cfg.wsTicketTtlSeconds) (hkey : isPublicKeyHex publicKey = true)
    (hregistration : registration ≠ []) (hlogin : login ≠ []) (hid : (env 1).id ≠ [])
    (hnew : ∀ u ∈ c.store.users, u.publicKey ≠ publicKey ∧ u.id ≠ (env 1).id)
    (hproof : Verifies verify .registration publicKey registration displayName
      (hexText (env 0).bytes.val))
    (hproof' : Verifies verify .login publicKey login none (hexText (env 2).bytes.val)) :
    (c.exec (credentials verify cfg) (handshake c.threads.length publicKey registration login
      displayName env)).threads =
      c.threads ++ letIn cfg publicKey registration login displayName env := by
  obtain ⟨ht₂, husers₂, hnow₂, hentry₂⟩ := enrolment_completes verify cfg c henv hchallengeTtl hkey
    hregistration hnew hproof
  rw [handshake, Config.exec_append]
  generalize c.exec (credentials verify cfg) _ = c₂ at ht₂ husers₂ hnow₂ hentry₂ ⊢
  have hl₃ : c₂.threads.length = c.threads.length + 3 := by
    rw [ht₂, List.length_append]
    rfl
  have hget₂ : c₂.store.redis.get (Flow.login.space.key publicKey) =
      some (hexText (env 2).bytes.val) := by
    have hlive : c₂.store.redis.now < c.store.redis.now + cfg.challengeTtlSeconds := by omega
    rw [Redis.get, Flow.space, hentry₂]
    exact if_pos hlive
  have hfound₂ : c₂.store.users.find? (fun u => u.publicKey = publicKey) =
      some ⟨(env 1).id, publicKey, displayName⟩ := by
    rw [husers₂]
    exact List.find?_cons_of_pos (by simp)
  obtain ⟨hs₃, ht₃⟩ := serve_runs hl₃ (authenticate_runs
    verify cfg (henv 3) hkey hlogin hfound₂ hget₂ (hexText_ne_nil _) hproof')
  rw [Config.exec_append]
  generalize c₂.exec (credentials verify cfg) _ = c₃ at hs₃ ht₃ ⊢
  have hl₄ : c₃.threads.length = c.threads.length + 4 := by
    rw [ht₃, List.length_append, hl₃]
    rfl
  have hget₃ : c₃.store.redis.get (Space.session.key (hexText (env 3).bytes.val)) =
      some (env 1).id := by
    rw [hs₃]
    exact Redis.get_set _ _ _ hsessionTtl
  obtain ⟨hs₄, ht₄⟩ := serve_runs hl₄ (wsTicket_runs
    verify cfg (henv 4) (bearerToken_bearer _) hget₃ hid)
  rw [Config.exec_append]
  generalize c₃.exec (credentials verify cfg) _ = c₄ at hs₄ ht₄ ⊢
  have hl₅ : c₄.threads.length = c.threads.length + 5 := by
    rw [ht₄, List.length_append, hl₄]
    rfl
  have hget₄ : c₄.store.redis.get (Space.wsTicket.key (hexText (env 4).bytes.val)) =
      some (env 1).id := by
    rw [hs₄]
    exact Redis.get_set _ _ _ hticketTtl
  obtain ⟨-, ht₅⟩ := serve_runs hl₅ (openSocket_runs
    verify cfg (henv 5) (hexText_ne_nil _) hget₄ hid)
  rw [ht₅, ht₄, ht₃, ht₂, letIn]
  simp only [List.append_assoc, List.cons_append, List.nil_append]

end Handshake

/-! ## A sample -/

section Sample

/-- A public key of Ed25519. -/
def sampleKeyBytes : List UInt8 := [
    0xD7, 0x5A, 0x98, 0x01, 0x82, 0xB1, 0x0A, 0xB7, 0xD5, 0x4B, 0xFE, 0xD3, 0xC9, 0x64, 0x07, 0x3A,
    0x0E, 0xE1, 0x72, 0xF3, 0xDA, 0xA6, 0x23, 0x25, 0xAF, 0x02, 0x1A, 0x68, 0xF7, 0x07, 0x51, 0x1A]

/-- The key's signature of the registration challenge `00…00`, with no name. -/
def sampleRegistrationBytes : List UInt8 := [
    0xF2, 0x65, 0x60, 0x19, 0x61, 0x37, 0x4D, 0x6E, 0xA4, 0x33, 0xAB, 0xB8, 0xCB, 0x2A, 0xE7, 0xA6,
    0xFD, 0x5C, 0x2D, 0xD9, 0x4E, 0x02, 0x72, 0xA0, 0xEE, 0xD0, 0x3B, 0x86, 0x6F, 0xE3, 0x4B, 0x9D,
    0xA3, 0x65, 0xE5, 0x18, 0xDF, 0xB5, 0xCD, 0x51, 0x53, 0x71, 0x01, 0xD2, 0x78, 0x3C, 0x56, 0xA0,
    0x4F, 0x14, 0x8C, 0x2F, 0x7D, 0xB1, 0x6F, 0x0A, 0x2C, 0xE9, 0x87, 0x3E, 0x9B, 0xE1, 0xAB, 0x03]

/-- The key's signature of the login challenge `00…02`. -/
def sampleLoginBytes : List UInt8 := [
    0x3D, 0x37, 0x8A, 0xB4, 0x4A, 0x51, 0xAC, 0x56, 0xCE, 0x83, 0xE0, 0x47, 0xF8, 0x15, 0xB3, 0x9D,
    0xBB, 0x06, 0xAD, 0x8D, 0x86, 0x5E, 0x5F, 0x2A, 0x26, 0x7B, 0xA5, 0xBA, 0x56, 0x38, 0x91, 0x71,
    0x0A, 0x46, 0xC8, 0xFD, 0xAD, 0x7E, 0x1D, 0x43, 0x18, 0x54, 0xCF, 0xE5, 0x3C, 0x0A, 0xD8, 0x56,
    0xA0, 0xE6, 0x6E, 0xFD, 0x76, 0x72, 0x95, 0x89, 0x52, 0x32, 0x24, 0x1E, 0x4F, 0x1A, 0x57, 0x0D]

theorem length_sampleBytes (k : ℕ) : (List.replicate 31 0 ++ [UInt8.ofNat k]).length = 32 := rfl

/-- The draws of the sample, each of its own bytes. -/
def sampleEnv (k : ℕ) : Env :=
  ⟨.answered, ⟨List.replicate 31 0 ++ [UInt8.ofNat k], length_sampleBytes k⟩, [0x75, 0x31]⟩

/-- The login and the registration that the key signed. -/
def sampleVerify (message signature publicKey : List UInt8) : Bool :=
  decide (publicKey = sampleKeyBytes) &&
    (decide (message = toUtf8 (hexText (sampleEnv 2).bytes.val)) &&
        decide (signature = sampleLoginBytes) ||
      decide (message = registrationProofMessage (hexText (sampleEnv 0).bytes.val) none) &&
        decide (signature = sampleRegistrationBytes))

/-- The expiries of the sample. -/
def sampleConfig : AuthConfig := ⟨120, 3600, 30⟩

/-- The public key of the sample. -/
def sampleKey : JsString := hexText sampleKeyBytes

/-- The signature of the registration. -/
def sampleRegistration : JsString := hexText sampleRegistrationBytes

/-- The signature of the login. -/
def sampleLogin : JsString := hexText sampleLoginBytes

theorem isPublicKeyHex_sampleKey : isPublicKeyHex sampleKey = true := by decide

theorem sampleRegistration_verifies : Verifies sampleVerify .registration sampleKey
    sampleRegistration none (hexText (sampleEnv 0).bytes.val) := by
  rw [Verifies, sampleKey, sampleRegistration, fromHex_hexText, fromHex_hexText, detachedVerify,
    if_neg (by decide), sampleVerify, Flow.message]
  simp

theorem sampleLogin_verifies : Verifies sampleVerify .login sampleKey sampleLogin none
    (hexText (sampleEnv 2).bytes.val) := by
  rw [Verifies, sampleKey, sampleLogin, fromHex_hexText, fromHex_hexText, detachedVerify,
    if_neg (by decide), sampleVerify, Flow.message]
  simp

/-- The requests of the sample, one after the other. -/
def sampleRun : List (Action Env Request) :=
  handshake 0 sampleKey sampleRegistration sampleLogin none sampleEnv

/-- Two requests of the sample draw two texts. -/
theorem sampleEnv_injective {k k' : ℕ} (hk : k < 256) (hk' : k' < 256)
    (h : (sampleEnv k).bytes = (sampleEnv k').bytes) : k = k' := by
  have hlast : UInt8.ofNat k = UInt8.ofNat k' := by
    have hbytes := congrArg (fun b : Random => b.val.getLast?) h
    simpa [sampleEnv] using hbytes
  have hnat := congrArg UInt8.toNat hlast
  simp only [UInt8.toNat_ofNat'] at hnat
  omega

theorem sampleRun_fresh :
    Config.Along (credentials sampleVerify sampleConfig) DrawsFresh fresh sampleRun := by
  refine along_drawsFresh fun {i j env env'} hi hj hsame => ?_
  obtain ⟨k, rfl, hk, rfl⟩ := eq_of_mem_handshake hi
  obtain ⟨k', rfl, hk', rfl⟩ := eq_of_mem_handshake hj
  rw [sampleEnv_injective (by omega) (by omega) hsame]

theorem sampleRun_threads :
    (fresh.exec (credentials sampleVerify sampleConfig) sampleRun).threads =
      letIn sampleConfig sampleKey sampleRegistration sampleLogin none sampleEnv :=
  handshake_completes fresh (fun _ => rfl) (by decide) (by decide) (by decide)
    isPublicKeyHex_sampleKey (by decide) (by decide) (List.cons_ne_nil _ _)
    (fun _ h => by cases h) sampleRegistration_verifies sampleLogin_verifies

end Sample

end Sails.Auth
