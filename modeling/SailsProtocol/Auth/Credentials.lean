import SailsProtocol.Async.Pool
import SailsProtocol.Async.SingleUse
import SailsProtocol.Identity.Signatures
import SailsProtocol.Text.Digest
import SailsProtocol.Wallet.Expectation

/-!
# Challenges, sessions and tickets

A participant registers and logs in by signing a challenge (`auth.ts`, `identity.service.ts`).
A login gives a session token, a session gives tickets for web sockets (`ws-auth.ts`), and all
of them are values in Redis with an expiry. A challenge is consumed by a compare-and-delete
after its signature is verified, a ticket by a get-and-delete (`atomic-consume.ts`).

`credentials` are the routes of `identity.routes.ts` and the socket routes over one Redis and
one table of users, as programs whose calls interleave. `nacl.sign.detached.verify` is a
parameter. `prog_guarded` says what each route has seen before each of its calls and what its
reply rests on.
-/

namespace Sails.Auth

open Async Text Identity
open Async.SingleUse (Change)

/-! ## Keys -/

/-- `CHALLENGE_PREFIX`. -/
def CHALLENGE_PREFIX : JsString := js "auth:challenge:"

/-- `SESSION_PREFIX`. -/
def SESSION_PREFIX : JsString := js "auth:session:"

/-- `WS_TICKET_PREFIX`. -/
def WS_TICKET_PREFIX : JsString := js "auth:ws-ticket:"

/-- `REGISTER_CHALLENGE_PREFIX`. -/
def REGISTER_CHALLENGE_PREFIX : JsString := js "identity:register-challenge:"

/-- The kinds of values that are kept in Redis. -/
inductive Space where
  | challenge
  | registerChallenge
  | session
  | wsTicket
  deriving DecidableEq, Repr

/-- The prefix of the keys of a kind. -/
def Space.tag : Space → JsString
  | .challenge => CHALLENGE_PREFIX
  | .registerChallenge => REGISTER_CHALLENGE_PREFIX
  | .session => SESSION_PREFIX
  | .wsTicket => WS_TICKET_PREFIX

/-- The bytes of the key of a text. -/
def Space.key (space : Space) (text : JsString) : List UInt8 := toUtf8 (space.tag ++ text)

/-- The prefixes are plain ASCII. -/
theorem Space.ascii_tag : ∀ (space : Space), ∀ u ∈ space.tag, u.toNat < 0x80 := by
  have hall : ∀ space : Space, (space.tag.all fun u => decide (u.toNat < 0x80)) = true := by
    intro space
    cases space
    · rw [tag, CHALLENGE_PREFIX, js_ofList]
      decide
    · rw [tag, REGISTER_CHALLENGE_PREFIX, js_ofList]
      decide
    · rw [tag, SESSION_PREFIX, js_ofList]
      decide
    · rw [tag, WS_TICKET_PREFIX, js_ofList]
      decide
  intro space u hu
  simpa using List.all_eq_true.mp (hall space) u hu

/-- The sixth byte of a key tells its space. -/
def Space.mark : Space → UInt8
  | .challenge => 0x63
  | .registerChallenge => 0x69
  | .session => 0x73
  | .wsTicket => 0x77

theorem Space.key_eq (space : Space) (text : JsString) :
    space.key text = space.tag.map (fun u => UInt8.ofNat u.toNat) ++ toUtf8 text :=
  toUtf8_ascii_append space.ascii_tag text

/-- One byte tells the kind of a key. -/
theorem Space.mark_key (space : Space) (text : JsString) :
    (space.key text)[5]? = some space.mark := by
  have htag : (space.tag.map fun u => UInt8.ofNat u.toNat)[5]? = some space.mark := by
    cases space
    · rw [tag, CHALLENGE_PREFIX, js_ofList]
      decide
    · rw [tag, REGISTER_CHALLENGE_PREFIX, js_ofList]
      decide
    · rw [tag, SESSION_PREFIX, js_ofList]
      decide
    · rw [tag, WS_TICKET_PREFIX, js_ofList]
      decide
  obtain ⟨hlt, -⟩ := List.getElem?_eq_some_iff.mp htag
  rw [key_eq, List.getElem?_append_left hlt, htag]

/-- The spaces do not meet, and a key is that of one text up to its bytes. -/
theorem Space.key_inj {space space' : Space} {text text' : JsString}
    (h : space.key text = space'.key text') : space = space' ∧ toUtf8 text = toUtf8 text' := by
  have hmark : space.mark = space'.mark := by
    have hkey := space.mark_key text
    rw [h, space'.mark_key] at hkey
    exact (Option.some.inj hkey).symm
  obtain rfl : space = space' := by
    cases space <;> cases space' <;> first | rfl | exact absurd hmark (by decide)
  rw [key_eq, key_eq] at h
  exact ⟨rfl, List.append_cancel_left h⟩

/-! ## Redis and the users -/

/-- Challenges, tickets, session tokens and user ids are ASCII, so a value is kept as it is. -/
structure Entry where
  value : JsString
  expiresAt : ℕ
  deriving DecidableEq

/-- The keys at the time `now`, and the changes of them that took effect. -/
structure Redis where
  now : ℕ
  entry : List UInt8 → Option Entry
  log : List (Change (List UInt8) JsString)

namespace Redis

/-- `GET`, which finds nothing after the expiry. -/
def get (s : Redis) (key : List UInt8) : Option JsString :=
  match s.entry key with
  | some e => if s.now < e.expiresAt then some e.value else none
  | none => none

/-- `SET key value EX ttl`. -/
def set (s : Redis) (key : List UInt8) (value : JsString) (ttl : ℕ) : Redis :=
  { s with
    entry := Function.update s.entry key (some ⟨value, s.now + ttl⟩)
    log := .written key value :: s.log }

/-- `DEL key`, of a key that has the value. -/
def del (s : Redis) (key : List UInt8) (value : JsString) : Redis :=
  { s with entry := Function.update s.entry key none, log := .used key value :: s.log }

/-- `ATOMIC_CONSUME_SCRIPT`. -/
def consume (s : Redis) (key : List UInt8) : Option JsString × Redis :=
  match s.get key with
  | some v => (some v, s.del key v)
  | none => (none, s)

/-- `ATOMIC_COMPARE_AND_CONSUME_SCRIPT`. -/
def compareAndConsume (s : Redis) (key : List UInt8) (expected : JsString) : Bool × Redis :=
  if s.get key = some expected then (true, s.del key expected) else (false, s)

end Redis

/-- A row of `User`. -/
structure User where
  id : JsString
  publicKey : JsString
  displayName : Option JsString
  deriving DecidableEq

/-- What the credential routes read and write. -/
structure Store where
  redis : Redis
  users : List User

/-! ## Calls -/

/-- `randomBytes(32)`. -/
abbrev Random := { bytes : List UInt8 // bytes.length = 32 }

/-- What the routes await. -/
inductive Call where
  | randomBytes
  | set (key : List UInt8) (value : JsString) (ttl : ℕ)
  | get (key : List UInt8)
  | compareAndConsume (key : List UInt8) (expected : JsString)
  | consume (key : List UInt8)
  | findUser (publicKey : JsString)
  | createUser (publicKey : JsString) (displayName : Option JsString)
  | elapse (seconds : ℕ)
  deriving DecidableEq

/-- What each call returns. -/
abbrev Answer : Call → Type
  | .randomBytes => Random
  | .set _ _ _ => Unit
  | .get _ => Option JsString
  | .compareAndConsume _ _ => Bool
  | .consume _ => Option JsString
  | .findUser _ => Option User
  | .createUser _ _ => User
  | .elapse _ => Unit

/-- What the routes throw. -/
inductive AuthFailure where
  | fault
  | uniqueConstraint
  | invalidBody
  | authError (message : String)
  | validationError (message : String)
  deriving DecidableEq, Repr

/-- A program over these calls. -/
abbrev AuthOp := Prog Answer AuthFailure

/-- One call, as a program. -/
def await (q : Call) : AuthOp (Answer q) := Prog.perform q

/-- The random bytes that are drawn, the id of a created user, and whether the call succeeds. -/
structure Env where
  fate : Fate
  bytes : Random
  id : JsString

/-- `user.create`, with its unique columns. -/
def Store.createUser (s : Store) (env : Env) (publicKey : JsString)
    (displayName : Option JsString) : Except AuthFailure User × Store :=
  if s.users.any fun u => u.publicKey = publicKey ∨ u.id = env.id then
    (.error .uniqueConstraint, s)
  else
    (.ok ⟨env.id, publicKey, displayName⟩,
      { s with users := ⟨env.id, publicKey, displayName⟩ :: s.users })

/-- The answer to a call that does not fail. -/
def Call.run : (q : Call) → Env → Store → Except AuthFailure (Answer q) × Store
  | .randomBytes, env, s => (.ok env.bytes, s)
  | .set key value ttl, _, s => (.ok (), { s with redis := s.redis.set key value ttl })
  | .get key, _, s => (.ok (s.redis.get key), s)
  | .compareAndConsume key expected, _, s =>
    (.ok (s.redis.compareAndConsume key expected).1,
      { s with redis := (s.redis.compareAndConsume key expected).2 })
  | .consume key, _, s =>
    (.ok (s.redis.consume key).1, { s with redis := (s.redis.consume key).2 })
  | .findUser publicKey, _, s => (.ok (s.users.find? fun u => u.publicKey = publicKey), s)
  | .createUser publicKey displayName, env, s => s.createUser env publicKey displayName
  | .elapse seconds, _, s =>
    (.ok (), { s with redis := { s.redis with now := s.redis.now + seconds } })

/-- Whether the call leaves the process. -/
def Call.remote : Call → Bool
  | .randomBytes => false
  | .elapse _ => false
  | _ => true

/-- A call under the fate the environment gives it, when it leaves the process. -/
def Call.exec (q : Call) (env : Env) (s : Store) : Except AuthFailure (Answer q) × Store :=
  if q.remote then env.fate.settle .fault (q.run env s) s else q.run env s

/-! ## Proofs of possession -/

/-- The two flows that issue challenges. -/
inductive Flow where
  | login
  | registration
  deriving DecidableEq, Repr

namespace Flow

/-- The kind of the challenges of a flow. -/
def space : Flow → Space
  | .login => .challenge
  | .registration => .registerChallenge

/-- What is signed for a challenge. -/
def message : Flow → JsString → Option JsString → List UInt8
  | .login, challenge, _ => toUtf8 challenge
  | .registration, challenge, displayName => registrationProofMessage challenge displayName

/-- The refusal for a challenge that is not there. -/
def missing : Flow → String
  | .login => "No challenge issued, or it expired — request a new one"
  | .registration => "No registration challenge issued, or it expired — request a new one"

/-- The refusal for a signature that does not verify. -/
def mismatch : Flow → String
  | .login => "Signature does not match challenge for this public key"
  | .registration =>
    "Signature does not match the registration challenge/metadata for this public key"

/-- The refusal for a challenge that another request consumed. -/
def consumed : Flow → String
  | .login => "Challenge already consumed or replaced — request a new one"
  | .registration => "Registration challenge already consumed or replaced — request a new one"

end Flow

/-- The refusal for a signature or a key of the wrong length. -/
def malformedEncoding : String := "Malformed signature or public key encoding"

/-- A string that JavaScript takes for a value : it is there and not empty. -/
def truthy : Option JsString → Option JsString
  | some [] => none
  | s => s

-- `nacl.sign.detached.verify` past its length checks.
variable (verify : List UInt8 → List UInt8 → List UInt8 → Bool)

/-- `nacl.sign.detached.verify`, which throws on lengths that are wrong. -/
def detachedVerify (message signature publicKey : List UInt8) : Option Bool :=
  if signature.length ≠ 64 ∨ publicKey.length ≠ 32 then none
  else some (verify message signature publicKey)

/-- The key's signature of the challenge verifies. -/
def Verifies (flow : Flow) (publicKeyHex signatureHex : JsString) (displayName : Option JsString)
    (challenge : JsString) : Prop :=
  detachedVerify verify (flow.message challenge displayName) (fromHex signatureHex)
    (fromHex publicKeyHex) = some true

instance (flow : Flow) (publicKeyHex signatureHex : JsString) (displayName : Option JsString)
    (challenge : JsString) :
    Decidable (Verifies verify flow publicKeyHex signatureHex displayName challenge) :=
  inferInstanceAs (Decidable (_ = some true))

/-- `issueChallenge` and `issueRegistrationChallenge`. -/
def issue (flow : Flow) (ttl : ℕ) (publicKeyHex : JsString) : AuthOp JsString := do
  let bytes ← await .randomBytes
  await (.set (flow.space.key publicKeyHex) (hexText bytes.val) ttl)
  pure (hexText bytes.val)

/-- What `verifySignedChallenge` and `verifyRegistrationProof` do up to the consumption of the
challenge : the `reason` of a refusal, if it is refused. -/
def consumeProof (flow : Flow) (publicKeyHex signatureHex : JsString)
    (displayName : Option JsString) : AuthOp (Option String) := do
  let stored ← await (.get (flow.space.key publicKeyHex))
  match truthy stored with
  | none => pure (some flow.missing)
  | some challenge =>
    match detachedVerify verify (flow.message challenge displayName) (fromHex signatureHex)
        (fromHex publicKeyHex) with
    | none => pure (some malformedEncoding)
    | some false => pure (some flow.mismatch)
    | some true => do
      let claimed ← await (.compareAndConsume (flow.space.key publicKeyHex) challenge)
      if claimed = true then pure none else pure (some flow.consumed)

/-! ## The routes -/

/-- The expiries of `config.auth`. -/
structure AuthConfig where
  challengeTtlSeconds : ℕ
  sessionTtlSeconds : ℕ
  wsTicketTtlSeconds : ℕ

/-- What a route answers. -/
inductive Reply where
  | issued (value : JsString) (expiresIn : ℕ)
  | refused (message : String)
  | session (participantId sessionToken : JsString)
  | registered (user : User)
  | participant (participantId : JsString)
  | closed
  | done
  deriving DecidableEq

variable (cfg : AuthConfig)

/-- `verifySignedChallenge`. -/
def verifySignedChallenge (publicKeyHex signatureHex : JsString) : AuthOp Reply := do
  let refusal ← consumeProof verify .login publicKeyHex signatureHex none
  match refusal with
  | some reason => pure (.refused reason)
  | none => do
    let found ← await (.findUser publicKeyHex)
    match found with
    | none => pure (.refused ("No participant registered for this public key — call " ++
        "/v1/identity/participants first"))
    | some user => do
      let bytes ← await .randomBytes
      await (.set (Space.session.key (hexText bytes.val)) user.id cfg.sessionTtlSeconds)
      pure (.session user.id (hexText bytes.val))

/-- The error of a second registration of a key. -/
def alreadyRegistered : AuthFailure :=
  .validationError "A participant is already registered for this public key"

/-- `register` of the identity service. -/
def register (publicKey signature : JsString) (displayName : Option JsString) :
    AuthOp Reply := do
  let existing ← await (.findUser publicKey)
  match existing with
  | some _ => throw alreadyRegistered
  | none => do
    let refusal ← consumeProof verify .registration publicKey signature displayName
    match refusal with
    | some reason => throw (.authError reason)
    | none => do
      let user ← Prog.tryCatch (await (.createUser publicKey displayName)) fun err =>
        if err = .uniqueConstraint then throw alreadyRegistered else throw err
      pure (.registered user)

/-- A code unit in lower case. -/
def lowerAscii (u : UInt16) : UInt16 :=
  if 0x41 ≤ u.toNat ∧ u.toNat ≤ 0x5A then u + 0x20 else u

/-- `replace(/^Bearer\s+/i, '')`. -/
def stripBearer (header : JsString) : JsString :=
  if (header.take 6).map lowerAscii = js "bearer" ∧
      (header.drop 6).head?.any Wallet.isSpace = true then
    (header.drop 6).dropWhile Wallet.isSpace
  else header

/-- The token of an `Authorization` header. -/
def bearerToken (authorization : Option JsString) : Option JsString :=
  truthy (authorization.map stripBearer)

/-- `requireAuth` : the participant of the request. -/
def requireAuth (authorization : Option JsString) : AuthOp JsString := do
  let token ← Prog.orThrow (bearerToken authorization)
    (.authError "Missing Authorization header")
  let participantId ← await (.get (Space.session.key token))
  Prog.orThrow (truthy participantId)
    (.authError "Session expired or invalid — re-authenticate via /v1/identity/challenge")

/-- `issueWsTicket`. -/
def issueWsTicket (participantId : JsString) : AuthOp Reply := do
  let bytes ← await .randomBytes
  await (.set (Space.wsTicket.key (hexText bytes.val)) participantId cfg.wsTicketTtlSeconds)
  pure (.issued (hexText bytes.val) cfg.wsTicketTtlSeconds)

/-- `resolveParticipantFromTicket`. -/
def resolveParticipantFromTicket (ticket : Option JsString) : AuthOp (Option JsString) :=
  match truthy ticket with
  | none => pure none
  | some text => await (.consume (Space.wsTicket.key text))

/-- `/^[0-9a-fA-F]{64}$/`. -/
def isPublicKeyHex (s : JsString) : Bool :=
  s.length == 64 && s.all fun u => (hexUnitValue u).isSome

/-- `authorized` is any route behind `requireAuth`, up to the participant it acts for. -/
inductive Request where
  | issueChallenge (flow : Flow) (publicKey : JsString)
  | authenticate (publicKey signature : JsString)
  | register (publicKey signature : JsString) (displayName : Option JsString)
  | authorized (authorization : Option JsString)
  | wsTicket (authorization : Option JsString)
  | openSocket (ticket : Option JsString)
  | elapse (seconds : ℕ)
  deriving DecidableEq

/-- The program of a route. -/
def Request.prog : Request → AuthOp Reply
  | .issueChallenge flow publicKey => do
    Prog.require (isPublicKeyHex publicKey) .invalidBody
    let challenge ← issue flow cfg.challengeTtlSeconds publicKey
    pure (.issued challenge cfg.challengeTtlSeconds)
  | .authenticate publicKey signature => do
    Prog.require (isPublicKeyHex publicKey && !signature.isEmpty) .invalidBody
    verifySignedChallenge verify cfg publicKey signature
  | .register publicKey signature displayName => do
    Prog.require (isPublicKeyHex publicKey && !signature.isEmpty) .invalidBody
    Auth.register verify publicKey signature displayName
  | .authorized authorization => do
    let participantId ← requireAuth authorization
    pure (.participant participantId)
  | .wsTicket authorization => do
    let participantId ← requireAuth authorization
    issueWsTicket cfg participantId
  | .openSocket ticket => do
    let participantId ← resolveParticipantFromTicket ticket
    match truthy participantId with
    | none => pure .closed
    | some participantId => pure (.participant participantId)
  | .elapse seconds => do
    await (.elapse seconds)
    pure .done

/-! ## What a thread sees -/

/-- What a call tells about the credentials. -/
inductive Seen where
  | drew (bytes : Random)
  | sent (key : List UInt8) (value : JsString) (time : ℕ)
  | read (key : List UInt8) (value : JsString) (time : ℕ)
  | consumed (key : List UInt8) (value : JsString) (time : ℕ)
  | found (user : User)
  deriving DecidableEq

/-- What is observed of a call. A write is observed when it is sent. -/
def observe : (q : Call) → Store → Except AuthFailure (Answer q) → List Seen
  | .randomBytes, _, .ok bytes => [.drew bytes]
  | .set key value _, s, _ => [.sent key value s.redis.now]
  | .get key, s, .ok (some value) => [.read key value s.redis.now]
  | .compareAndConsume key expected, s, .ok true => [.consumed key expected s.redis.now]
  | .consume key, s, .ok (some value) => [.consumed key value s.redis.now]
  | .findUser _, _, .ok (some user) => [.found user]
  | _, _, _ => []

/-- The credential routes. -/
abbrev credentials : System Answer AuthFailure Reply Store Env Request Seen where
  exec := Call.exec
  observe := observe
  prog := Request.prog verify cfg

/-- The store and the requests to the routes. -/
abbrev Server := Config Answer AuthFailure Reply Store Request Seen

/-- Before any request. -/
def fresh : Server := Config.init ⟨⟨0, fun _ => none, []⟩, []⟩

/-! ## What each call rests on -/

/-- Neither a draw nor a write. -/
def Seen.idle : Seen → Bool
  | .drew _ => false
  | .sent _ _ _ => false
  | _ => true

/-- Nothing was drawn, sent or consumed. -/
def Idle (log : List Seen) : Prop := ∀ o ∈ log, o.idle = true

/-- The expiry of the values of a space. -/
def Space.ttl : Space → ℕ
  | .challenge => cfg.challengeTtlSeconds
  | .registerChallenge => cfg.challengeTtlSeconds
  | .session => cfg.sessionTtlSeconds
  | .wsTicket => cfg.wsTicketTtlSeconds

/-- The request proves possession of the key in the flow. -/
inductive Claims : Request → Flow → JsString → JsString → Option JsString → Prop
  | authenticate (publicKey signature : JsString) (hkey : isPublicKeyHex publicKey = true) :
    Claims (.authenticate publicKey signature) .login publicKey signature none
  | register (publicKey signature : JsString) (displayName : Option JsString)
    (hkey : isPublicKeyHex publicKey = true) :
    Claims (.register publicKey signature displayName) .registration publicKey signature
      displayName

/-- The thread consumed the challenge at the time, after its signature verified. -/
def Proved (flow : Flow) (publicKey signature : JsString) (displayName : Option JsString)
    (challenge : JsString) (time : ℕ) (log : List Seen) : Prop :=
  .consumed (flow.space.key publicKey) challenge time ∈ log ∧
    Verifies verify flow publicKey signature displayName challenge

/-- The participant's session token was read at the time. -/
def Authorized (authorization : Option JsString) (participantId : JsString) (time : ℕ)
    (log : List Seen) : Prop :=
  ∃ token, bearerToken authorization = some token ∧
    .read (Space.session.key token) participantId time ∈ log

/-- What a value is written for. -/
inductive Backed (log : List Seen) (bytes : Random) :
    Request → Space → JsString → JsString → Prop
  | challenge (flow : Flow) (publicKey : JsString) (hkey : isPublicKeyHex publicKey = true) :
    Backed log bytes (.issueChallenge flow publicKey) flow.space publicKey (hexText bytes.val)
  | session (req : Request) (user : User) (signature challenge : JsString) (time : ℕ)
    (hclaims : Claims req .login user.publicKey signature none) (hfound : .found user ∈ log)
    (hproved : Proved verify .login user.publicKey signature none challenge time log) :
    Backed log bytes req .session (hexText bytes.val) user.id
  | wsTicket (authorization : Option JsString) (participantId : JsString) (time : ℕ)
    (hread : Authorized authorization participantId time log) :
    Backed log bytes (.wsTicket authorization) .wsTicket (hexText bytes.val) participantId

/-- When each call is made. -/
def Allowed (req : Request) (log : List Seen) : Call → Prop
  | .randomBytes => Idle log
  | .set key value ttl => ∃ bytes rest space text, log = .drew bytes :: rest ∧ Idle rest ∧
      key = space.key text ∧ ttl = space.ttl cfg ∧ Backed verify rest bytes req space text value
  | .compareAndConsume key challenge => ∃ flow publicKey signature displayName,
      Claims req flow publicKey signature displayName ∧ key = flow.space.key publicKey ∧
      Verifies verify flow publicKey signature displayName challenge
  | .consume key => ∃ ticket, req = .openSocket (some ticket) ∧ key = Space.wsTicket.key ticket
  | .createUser publicKey displayName => ∃ signature challenge time,
      Claims req .registration publicKey signature displayName ∧
      Proved verify .registration publicKey signature displayName challenge time log
  | .elapse seconds => req = .elapse seconds
  | .get _ => True
  | .findUser _ => True

/-- What the reply rests on. -/
def Over (req : Request) (log : List Seen) : Except AuthFailure Reply → Prop
  | .ok (.session participantId sessionToken) => ∃ user signature challenge time,
      Claims req .login user.publicKey signature none ∧ user.id = participantId ∧
      .found user ∈ log ∧ Proved verify .login user.publicKey signature none challenge time log ∧
      ∃ time', .sent (Space.session.key sessionToken) participantId time' ∈ log
  | .ok (.registered user) => ∃ signature challenge time,
      Claims req .registration user.publicKey signature user.displayName ∧
      Proved verify .registration user.publicKey signature user.displayName challenge time log
  | .ok (.participant participantId) =>
      (∃ authorization time, req = .authorized authorization ∧
        Authorized authorization participantId time log) ∨
      ∃ ticket time, req = .openSocket (some ticket) ∧
        .consumed (Space.wsTicket.key ticket) participantId time ∈ log
  | _ => True

section Guards

variable {verify} {cfg}

variable (verify) (cfg) in
/-- The answers of the model. -/
abbrev can : ∀ q : Call, Store → Except AuthFailure (Answer q) → Prop :=
  Config.Answerable (credentials verify cfg) fun _ => True

theorem idle_nil : Idle [] := nofun

theorem Idle.cons {o : Seen} {log : List Seen} (ho : o.idle = true) (h : Idle log) :
    Idle (o :: log) := by
  intro o' ho'
  rcases List.mem_cons.mp ho' with rfl | ho'
  · exact ho
  · exact h o' ho'

/-- A call that neither draws nor writes keeps the log idle. -/
theorem Idle.observe {log : List Seen} (h : Idle log) (q : Call) (s : Store)
    (r : Except AuthFailure (Answer q)) (hdraw : q ≠ .randomBytes)
    (hset : ∀ key value ttl, q ≠ .set key value ttl) : Idle (observe q s r ++ log) := by
  cases q with
  | randomBytes => exact absurd rfl hdraw
  | set key value ttl => exact absurd rfl (hset key value ttl)
  | get key =>
    rcases r with e | _ | value
    · exact h
    · exact h
    · exact Idle.cons rfl h
  | compareAndConsume key expected =>
    rcases r with e | _ | _
    · exact h
    · exact h
    · exact Idle.cons rfl h
  | consume key =>
    rcases r with e | _ | value
    · exact h
    · exact h
    · exact Idle.cons rfl h
  | findUser publicKey =>
    rcases r with e | _ | user
    · exact h
    · exact h
    · exact Idle.cons rfl h
  | createUser publicKey displayName => exact h
  | elapse seconds => exact h

/-- A proof of possession that is not refused has consumed its challenge. -/
theorem consumeProof_guarded {req : Request} {flow : Flow} {publicKey signature : JsString}
    {displayName : Option JsString} (hreq : Claims req flow publicKey signature displayName)
    {log : List Seen} (hlog : Idle log) :
    (consumeProof verify flow publicKey signature displayName).Guarded (can verify cfg) observe
      (Allowed verify cfg req) (fun log' r => Idle log' ∧ (r = .ok none →
        ∃ challenge time, Proved verify flow publicKey signature displayName challenge time log'))
      log := by
  refine (Prog.guarded_bind _ _ _).mpr ⟨trivial, fun s r _ => ?_⟩
  have hidle := hlog.observe (.get (flow.space.key publicKey)) s r
    (fun h => by cases h) (fun _ _ _ h => by cases h)
  cases r with
  | error e => exact ⟨hidle, fun h => by cases h⟩
  | ok stored =>
    simp only [Prog.guarded_ret]
    cases truthy stored with
    | none => exact ⟨hidle, fun h => by cases h⟩
    | some challenge =>
      dsimp only
      cases hverify : detachedVerify verify (flow.message challenge displayName)
          (fromHex signature) (fromHex publicKey) with
      | none => exact ⟨hidle, fun h => by cases h⟩
      | some valid =>
        cases valid with
        | false => exact ⟨hidle, fun h => by cases h⟩
        | true =>
          refine (Prog.guarded_bind _ _ _).mpr ⟨⟨flow, publicKey, signature, displayName, hreq,
            rfl, hverify⟩, fun s' r' _ => ?_⟩
          have hidle' := hidle.observe (.compareAndConsume (flow.space.key publicKey) challenge)
            s' r' (fun h => by cases h) (fun _ _ _ h => by cases h)
          rcases r' with e | _ | _
          · exact ⟨hidle', fun h => by cases h⟩
          · exact ⟨hidle', fun h => by cases h⟩
          · exact ⟨hidle', fun _ => ⟨challenge, s'.redis.now, List.mem_cons_self, hverify⟩⟩

theorem Claims.publicKey {req : Request} {flow : Flow} {publicKey signature : JsString}
    {displayName : Option JsString} (h : Claims req flow publicKey signature displayName) :
    isPublicKeyHex publicKey = true := by
  cases h with
  | authenticate _ _ hkey => exact hkey
  | register _ _ _ hkey => exact hkey

/-- What is found has the public key. -/
theorem publicKey_of_found {publicKey : JsString} {s : Store} {user : User}
    (h : can verify cfg (.findUser publicKey) s (.ok (some user))) :
    user.publicKey = publicKey := by
  obtain ⟨-, env, henv⟩ := h
  rcases env.fate.settle_answer AuthFailure.fault
    (Call.run (.findUser publicKey) env s) s with heq | heq
  · have hfind : (.ok (s.users.find? fun u => u.publicKey = publicKey) :
        Except AuthFailure (Option User)) = .ok (some user) := by
      rw [← henv]
      exact (congrArg Prod.fst heq).symm
    have hsome := List.find?_some (Except.ok.inj hfind)
    simpa using hsome
  · have hfault : (.error .fault : Except AuthFailure (Option User)) = .ok (some user) :=
      heq.symm.trans henv
    cases hfault

/-- What is created is what was asked for. -/
theorem user_of_created {publicKey : JsString} {displayName : Option JsString} {s : Store}
    {user : User} (h : can verify cfg (.createUser publicKey displayName) s
      (.ok user)) : user.publicKey = publicKey ∧ user.displayName = displayName := by
  obtain ⟨-, env, henv⟩ := h
  rcases env.fate.settle_answer AuthFailure.fault
    (Call.run (.createUser publicKey displayName) env s) s with heq | heq
  · have hrun : (s.createUser env publicKey displayName).1 = .ok user := by
      rw [← henv]
      exact (congrArg Prod.fst heq).symm
    unfold Store.createUser at hrun
    split_ifs at hrun
    obtain rfl := Except.ok.inj hrun
    exact ⟨rfl, rfl⟩
  · have hfault : (.error .fault : Except AuthFailure User) = .ok user :=
      heq.symm.trans henv
    cases hfault

/-- A login meets its guards and rests on its proof. -/
theorem verifySignedChallenge_guarded {publicKey signature : JsString}
    (hkey : isPublicKeyHex publicKey = true) :
    (verifySignedChallenge verify cfg publicKey signature).Guarded (can verify cfg) observe
      (Allowed verify cfg (.authenticate publicKey signature))
      (Over verify (.authenticate publicKey signature)) [] := by
  refine (Prog.guarded_bind _ _ _).mpr
    ((consumeProof_guarded (.authenticate _ _ hkey) idle_nil).mono fun log r hr => ?_)
  obtain ⟨hidle, hproved⟩ := hr
  rcases r with e | _ | reason
  · trivial
  · obtain ⟨challenge, time, hproved⟩ := hproved rfl
    refine (Prog.guarded_bind _ _ _).mpr ⟨trivial, fun s r hcan => ?_⟩
    rcases r with e | _ | user
    · trivial
    · trivial
    · obtain rfl := publicKey_of_found hcan
      have hfound : Idle (.found user :: log) := Idle.cons rfl hidle
      have hproved' : Proved verify .login user.publicKey signature none challenge time
          (.found user :: log) := ⟨List.mem_cons_of_mem _ hproved.1, hproved.2⟩
      refine (Prog.guarded_bind _ _ _).mpr ⟨hfound, fun s' r' _ => ?_⟩
      rcases r' with e | bytes
      · trivial
      · refine (Prog.guarded_bind _ _ _).mpr ⟨⟨bytes, .found user :: log, .session,
          hexText bytes.val, rfl, hfound, rfl, rfl, .session _ user signature challenge time
            (.authenticate _ _ hkey) List.mem_cons_self hproved'⟩, fun s'' r'' _ => ?_⟩
        cases r'' with
        | error e => trivial
        | ok _ =>
          exact ⟨user, signature, challenge, time, .authenticate _ _ hkey, rfl,
            List.mem_cons_of_mem _ (List.mem_cons_of_mem _ List.mem_cons_self),
            ⟨List.mem_cons_of_mem _ (List.mem_cons_of_mem _ hproved'.1), hproved.2⟩,
            s''.redis.now, List.mem_cons_self⟩
  · trivial

/-- A registration meets its guards and rests on its proof. -/
theorem register_guarded {publicKey signature : JsString} {displayName : Option JsString}
    (hkey : isPublicKeyHex publicKey = true) :
    (register verify publicKey signature displayName).Guarded (can verify cfg) observe
      (Allowed verify cfg (.register publicKey signature displayName))
      (Over verify (.register publicKey signature displayName)) [] := by
  refine (Prog.guarded_bind _ _ _).mpr ⟨trivial, fun s r _ => ?_⟩
  have hidle := idle_nil.observe (.findUser publicKey) s r nofun nofun
  rcases r with e | _ | user
  · trivial
  · refine (Prog.guarded_bind _ _ _).mpr
      ((consumeProof_guarded (.register _ _ _ hkey) hidle).mono fun log r hr => ?_)
    obtain ⟨-, hproved⟩ := hr
    rcases r with e | _ | reason
    · trivial
    · obtain ⟨challenge, time, hproved⟩ := hproved rfl
      refine (Prog.guarded_bind _ _ _).mpr ((Prog.guarded_tryCatch _ _ _).mpr
        ⟨⟨signature, challenge, time, .register _ _ _ hkey, hproved⟩, fun s' r' hcan => ?_⟩)
      cases r' with
      | error e =>
        refine (Prog.guarded_ite _ _ _).mpr ⟨fun _ => trivial, fun _ => trivial⟩
      | ok user =>
        obtain ⟨hpublicKey, hdisplayName⟩ := user_of_created hcan
        refine ⟨signature, challenge, time, ?_, ?_⟩
        · rw [hpublicKey, hdisplayName]
          exact .register _ _ _ hkey
        · rw [hpublicKey, hdisplayName]
          exact hproved
    · trivial
  · trivial

/-- An authorization rests on a session that was read. -/
theorem requireAuth_guarded {req : Request} (authorization : Option JsString) :
    (requireAuth authorization).Guarded (can verify cfg) observe
      (Allowed verify cfg req) (fun log r => Idle log ∧ ∀ participantId, r = .ok participantId →
        ∃ time, Authorized authorization participantId time log) [] := by
  refine (Prog.guarded_bind _ _ _).mpr ((Prog.guarded_orThrow _ _).mpr
    ⟨fun token htoken => ?_, fun _ => ⟨idle_nil, nofun⟩⟩)
  refine (Prog.guarded_bind _ _ _).mpr ⟨trivial, fun s r _ => ?_⟩
  have hidle := idle_nil.observe (.get (Space.session.key token)) s r nofun nofun
  rcases r with e | _ | value
  · exact ⟨hidle, nofun⟩
  · exact ⟨hidle, nofun⟩
  · refine (Prog.guarded_orThrow _ _).mpr ⟨fun participantId hvalue => ⟨hidle, ?_⟩,
      fun _ => ⟨hidle, nofun⟩⟩
    rintro participantId' ⟨⟩
    refine ⟨s.redis.now, token, htoken, ?_⟩
    cases value with
    | nil => cases hvalue
    | cons u value =>
      obtain rfl := Option.some.inj hvalue
      exact List.mem_cons_self

/-- Every route meets its guards. -/
theorem prog_guarded (req : Request) :
    (req.prog verify cfg).Guarded (can verify cfg) observe
      (Allowed verify cfg req) (Over verify req) [] := by
  cases req with
  | issueChallenge flow publicKey =>
    refine (Prog.guarded_bind _ _ _).mpr ((Prog.guarded_require _ _).mpr
      ⟨fun hkey => ?_, fun _ => trivial⟩)
    refine (Prog.guarded_bind _ _ _).mpr ((Prog.guarded_bind _ _ _).mpr
      ⟨idle_nil, fun s r _ => ?_⟩)
    rcases r with e | bytes
    · trivial
    · refine (Prog.guarded_bind _ _ _).mpr ⟨⟨bytes, [], flow.space, publicKey, rfl, idle_nil, rfl,
        ?_, .challenge flow publicKey hkey⟩, fun s' r' _ => ?_⟩
      · cases flow <;> rfl
      · rcases r' with e | _ <;> trivial
  | authenticate publicKey signature =>
    refine (Prog.guarded_bind _ _ _).mpr ((Prog.guarded_require _ _).mpr
      ⟨fun hbody => verifySignedChallenge_guarded (Bool.and_eq_true_iff.mp hbody).1,
        fun _ => trivial⟩)
  | register publicKey signature displayName =>
    refine (Prog.guarded_bind _ _ _).mpr ((Prog.guarded_require _ _).mpr
      ⟨fun hbody => register_guarded (Bool.and_eq_true_iff.mp hbody).1, fun _ => trivial⟩)
  | authorized authorization =>
    refine (Prog.guarded_bind _ _ _).mpr
      ((requireAuth_guarded authorization).mono fun log r hr => ?_)
    cases r with
    | error e => trivial
    | ok participantId =>
      obtain ⟨time, hread⟩ := hr.2 participantId rfl
      exact Or.inl ⟨authorization, time, rfl, hread⟩
  | wsTicket authorization =>
    refine (Prog.guarded_bind _ _ _).mpr
      ((requireAuth_guarded authorization).mono fun log r hr => ?_)
    cases r with
    | error e => trivial
    | ok participantId =>
      obtain ⟨time, hread⟩ := hr.2 participantId rfl
      refine (Prog.guarded_bind _ _ _).mpr ⟨hr.1, fun s r' _ => ?_⟩
      rcases r' with e | bytes
      · trivial
      · refine (Prog.guarded_bind _ _ _).mpr ⟨⟨bytes, log, .wsTicket, hexText bytes.val, rfl,
          hr.1, rfl, rfl, .wsTicket authorization participantId time hread⟩, fun s' r'' _ => ?_⟩
        rcases r'' with e | _ <;> trivial
  | openSocket ticket =>
    refine (Prog.guarded_bind _ _ _).mpr ?_
    cases htext : truthy ticket with
    | none =>
      simp only [resolveParticipantFromTicket, htext]
      trivial
    | some text =>
      have hticket : ticket = some text := by
        rcases ticket with _ | _ | ⟨u, ticket⟩
        · cases htext
        · cases htext
        · exact htext
      simp only [resolveParticipantFromTicket, htext]
      refine ⟨⟨text, by rw [hticket], rfl⟩, fun s r _ => ?_⟩
      rcases r with e | _ | value
      · trivial
      · trivial
      · rcases value with _ | ⟨u, value⟩
        · trivial
        · exact Or.inr ⟨text, s.redis.now, by rw [hticket], List.mem_cons_self⟩
  | elapse seconds =>
    refine (Prog.guarded_bind _ _ _).mpr ⟨rfl, fun s r _ => ?_⟩
    rcases r with e | _ <;> trivial

end Guards

end Sails.Auth
