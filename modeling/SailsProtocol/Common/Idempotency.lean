import SailsProtocol.Async.Pool
import SailsProtocol.Text.CodeUnits

/-!
# Idempotency keys

`withIdempotency` of `common/idempotency.ts` claims a row for a key before it runs `persist`,
settles the row by what `persist` did, and lets a later caller with the same key recover the
object or, after a failure, reclaim the row. The store of the rows is a parameter of the
function, as in the source, and an object stands for its id.

`executed_once` is what callers of one key get, whatever runs, fails or crashes : `persist`
succeeds once at most and never runs twice at a time, every value that is returned is that of
the one success, and a settled row stays settled.
-/

namespace Sails.Idempotency

open Async Text

/-! ## The function -/

/-- `IdempotencyKeyStatus`. -/
inductive IdempotencyKeyStatus where
  | IN_PROGRESS
  | COMPLETED
  | UNKNOWN
  | FAILED
  deriving DecidableEq, Repr

/-- `IdempotencyRecord`. -/
structure IdempotencyRecord where
  id : ℕ
  requestHash : ℕ
  status : IdempotencyKeyStatus
  resultRef : Option ℕ
  deriving DecidableEq

/-- A key a caller gives. An absent or an empty one asks for no protection. -/
structure IdempotencyKey where
  text : JsString
  nonempty : text ≠ []

section Function

variable {Call : Type} {Ans : Call → Type} {ε : Type}

/-- `IdempotencyKeyStore`, for one scope, participant and key. -/
structure IdempotencyKeyStore (Ans : Call → Type) (ε : Type) where
  claim : ℕ → Prog Ans ε ℕ
  find : Prog Ans ε (Option IdempotencyRecord)
  markCompleted : ℕ → ℕ → Prog Ans ε Unit
  markUnknown : ℕ → ℕ → Prog Ans ε Unit
  markFailed : ℕ → Prog Ans ε Unit
  reclaimFailed : ℕ → Prog Ans ε Bool

/-- The errors the function throws itself, and the one it looks for. -/
structure KeyErrors (ε : Type) where
  isUniqueConstraintError : ε → Bool
  differentRequest : ε
  conflict : ε
  noResult : ε

variable (store : IdempotencyKeyStore Ans ε) (errors : KeyErrors ε)
variable (persist : Option ℕ → Prog Ans ε ℕ) (postPersist : ℕ → Prog Ans ε Unit)
variable (recover : ℕ → Prog Ans ε ℕ)

/-- `runAndSettle`. -/
def runAndSettle (claimId : ℕ) : Prog Ans ε ℕ := do
  let result ← Prog.tryCatch (persist (some claimId)) fun err => do
    store.markFailed claimId
    throw err
  Prog.swallow (Prog.tryCatch (store.markCompleted claimId result)
    fun _ => store.markUnknown claimId result)
  postPersist result
  pure result

/-- A row that is settled gives its object. -/
def recoverSettled (record : IdempotencyRecord) : Prog Ans ε ℕ := do
  let resultRef ← Prog.orThrow record.resultRef errors.noResult
  recover resultRef

/-- The branch of `withIdempotency` for a row that failed. -/
def reclaim (existing : IdempotencyRecord) : Prog Ans ε ℕ := do
  let reclaimed ← store.reclaimFailed existing.id
  if reclaimed then runAndSettle store persist postPersist existing.id
  else do
    let afterReclaim ← store.find
    match afterReclaim with
    | some record =>
      if record.status = .COMPLETED ∨ record.status = .UNKNOWN then
        recoverSettled errors recover record
      else throw errors.conflict
    | none => throw errors.conflict

/-- The branch of `withIdempotency` for a key that is claimed already. -/
def resume (requestHash : ℕ) (err : ε) : Prog Ans ε ℕ := do
  let found ← store.find
  let existing ← Prog.orThrow found err
  Prog.require (decide (existing.requestHash = requestHash)) errors.differentRequest
  match existing.status with
  | .IN_PROGRESS => throw errors.conflict
  | .COMPLETED => recoverSettled errors recover existing
  | .UNKNOWN => recoverSettled errors recover existing
  | .FAILED => reclaim store errors persist postPersist recover existing

/-- `claim`, with the unique constraint error as a value. -/
def tryClaim (requestHash : ℕ) : Prog Ans ε (Except ε ℕ) :=
  Prog.tryCatch (do
      let id ← store.claim requestHash
      pure (.ok id))
    fun err => if errors.isUniqueConstraintError err then pure (.error err) else throw err

/-- `withIdempotency`. -/
def withIdempotency (key : Option IdempotencyKey) (requestHash : ℕ) : Prog Ans ε ℕ :=
  match key with
  | none => do
    let result ← persist none
    postPersist result
    pure result
  | some _ => do
    let claim ← tryClaim store errors requestHash
    match claim with
    | .error err => resume store errors persist postPersist recover requestHash err
    | .ok id => runAndSettle store persist postPersist id

end Function

/-! ## Callers of one key -/

/-- What the callers can throw. -/
inductive KeyError where
  | fault
  | uniqueConstraint
  | recordNotFound
  | persistFailed
  | differentRequest
  | conflict
  | noResult
  deriving DecidableEq, Repr

/-- The row of the key, and the ids of the objects that were ever persisted. -/
structure KeyRows where
  record : Option IdempotencyRecord
  objects : List ℕ
  deriving DecidableEq

/-- What `withIdempotency` awaits. -/
inductive Call where
  | claim (requestHash : ℕ)
  | find
  | markCompleted (id resultRef : ℕ)
  | markUnknown (id resultRef : ℕ)
  | markFailed (id : ℕ)
  | reclaimFailed (id : ℕ)
  | persist (claimId : Option ℕ)
  | postPersist (result : ℕ)
  | recover (resultId : ℕ)
  deriving DecidableEq

/-- What each call returns. -/
abbrev Answer : Call → Type
  | .claim _ => ℕ
  | .find => Option IdempotencyRecord
  | .reclaimFailed _ => Bool
  | .persist _ => ℕ
  | _ => Unit

/-- What the environment decides about a call. `id` is a new uuid. -/
structure KeyEnv where
  fate : Fate := .answered
  id : ℕ := 0

/-- `update` of a row by its id. -/
def KeyRows.update (s : KeyRows) (id : ℕ) (f : IdempotencyRecord → IdempotencyRecord) :
    Except KeyError Unit × KeyRows :=
  match s.record with
  | none => (.error .recordNotFound, s)
  | some r => if r.id = id then (.ok (), { s with record := some (f r) }) else
      (.error .recordNotFound, s)

/-- What a call answers and does to the row when it does not fail. -/
def Call.run : (q : Call) → KeyEnv → KeyRows → Except KeyError (Answer q) × KeyRows
  | .claim requestHash, env, s =>
    match s.record with
    | some _ => (.error .uniqueConstraint, s)
    | none => (.ok env.id, { s with record := some ⟨env.id, requestHash, .IN_PROGRESS, none⟩ })
  | .find, _, s => (.ok s.record, s)
  | .markCompleted id resultRef, _, s =>
    s.update id ({ · with status := .COMPLETED, resultRef := some resultRef })
  | .markUnknown id resultRef, _, s =>
    s.update id ({ · with status := .UNKNOWN, resultRef := some resultRef })
  | .markFailed id, _, s => s.update id ({ · with status := .FAILED })
  | .reclaimFailed id, _, s =>
    match s.record with
    | none => (.ok false, s)
    | some r => if r.id = id ∧ r.status = .FAILED then
        (.ok true, { s with record := some { r with status := .IN_PROGRESS } })
      else (.ok false, s)
  | .persist _, env, s => (.ok env.id, { s with objects := s.objects ++ [env.id] })
  | .postPersist _, _, s => (.ok (), s)
  | .recover _, _, s => (.ok (), s)

/-- The answer to a call, and the store after it. A `persist` that throws leaves nothing. -/
def Call.exec : (q : Call) → KeyEnv → KeyRows → Except KeyError (Answer q) × KeyRows
  | .persist claimId, env, s =>
    if env.fate = .answered then (Call.persist claimId).run env s else (.error .persistFailed, s)
  | q, env, s => env.fate.settle .fault (q.run env s) s

/-- A program over these calls. -/
abbrev KeyOp := Prog Answer KeyError

/-- One call, as a program. -/
def await (q : Call) : KeyOp (Answer q) := Prog.perform q

/-- `PrismaIdempotencyKeyStore`. -/
def prismaStore : IdempotencyKeyStore Answer KeyError where
  claim requestHash := await (.claim requestHash)
  find := await .find
  markCompleted id resultRef := await (.markCompleted id resultRef)
  markUnknown id resultRef := await (.markUnknown id resultRef)
  markFailed id := await (.markFailed id)
  reclaimFailed id := await (.reclaimFailed id)

/-- The errors of a caller that throws `KeyError`. -/
def keyErrors : KeyErrors KeyError where
  isUniqueConstraintError e := e = .uniqueConstraint
  differentRequest := .differentRequest
  conflict := .conflict
  noResult := .noResult

/-- A call of `withIdempotency` for the key. -/
structure KeyReq where
  requestHash : ℕ
  deriving DecidableEq

/-- The write that must happen once. -/
def persist (claimId : Option ℕ) : KeyOp ℕ := await (.persist claimId)

/-- What follows the write. -/
def postPersist (result : ℕ) : KeyOp Unit := await (.postPersist result)

/-- `recover` reads the object, and throws when there is none. -/
def recover (resultId : ℕ) : KeyOp ℕ := do
  await (.recover resultId)
  pure resultId

/-- A call of `withIdempotency` under the key. -/
def KeyReq.prog (key : IdempotencyKey) (req : KeyReq) : KeyOp ℕ :=
  withIdempotency prismaStore keyErrors persist postPersist recover (some key) req.requestHash

/-! ## What a caller knows -/

/-- What a call tells about the key and the write. -/
inductive Seen where
  | acquired (id : ℕ)
  | found (record : IdempotencyRecord)
  | persisted (result : ℕ)
  | threw
  | released
  deriving DecidableEq

/-- What is observed of a call. -/
def observe : (q : Call) → KeyRows → Except KeyError (Answer q) → List Seen
  | .claim _, _, .ok id => [.acquired id]
  | .find, _, .ok (some record) => [.found record]
  | .reclaimFailed id, _, .ok true => [.acquired id]
  | .persist _, _, .ok result => [.persisted result]
  | .persist _, _, .error _ => [.threw]
  | .markFailed _, _, _ => [.released]
  | _, _, _ => []

/-- Any number of calls under one key. -/
abbrev keys (key : IdempotencyKey) :
    System Answer KeyError ℕ KeyRows KeyEnv KeyReq Seen where
  exec := Call.exec
  observe := observe
  prog := KeyReq.prog key

/-- The row of the key and the calls under it. -/
abbrev Callers := Config Answer KeyError ℕ KeyRows KeyReq Seen

/-- The key will not run again. -/
def IdempotencyRecord.settled (r : IdempotencyRecord) : Prop :=
  r.status = .COMPLETED ∨ r.status = .UNKNOWN

/-- The row is the caller's : it claimed it, has not given it up, and has not persisted. -/
structure Holds (log : List Seen) : Prop where
  acquired : ∃ id, .acquired id ∈ log
  kept : .released ∉ log
  unpersisted : ∀ result, .persisted result ∉ log

/-- What each call is based on. -/
def Allowed (req : KeyReq) (log : List Seen) : Call → Prop
  | .claim requestHash => requestHash = req.requestHash
  | .reclaimFailed id =>
    ∃ r, .found r ∈ log ∧ r.id = id ∧ r.requestHash = req.requestHash
  | .persist claimId => (∃ id, claimId = some id ∧ .acquired id ∈ log) ∧ Holds log ∧ .threw ∉ log
  | .markCompleted id resultRef => .acquired id ∈ log ∧ .persisted resultRef ∈ log
  | .markUnknown id resultRef => .acquired id ∈ log ∧ .persisted resultRef ∈ log
  | .markFailed id => .acquired id ∈ log ∧ Holds log
  | _ => True

/-- The value of a caller is the object it persisted, or one a settled row has. -/
def Resulted (log : List Seen) (result : ℕ) : Prop :=
  .persisted result ∈ log ∨ ∃ r, .found r ∈ log ∧ r.settled ∧ r.resultRef = some result

section Guards

variable {can : ∀ q : Call, KeyRows → Except KeyError (Answer q) → Prop} {req : KeyReq}
variable {log : List Seen}

/-- The caller has only looked at the row. -/
def Looking (log : List Seen) : Prop :=
  ∀ o ∈ log, ∃ r, o = .found r

/-- Whoever acquired the key writes, and settles it. -/
theorem runAndSettle_allowed {id : ℕ} (hlog : Looking log) :
    (runAndSettle prismaStore persist postPersist id).Guarded can observe (Allowed req)
      (fun log' r => ∀ result, r = .ok result → Resulted log' result) (.acquired id :: log) := by
  have hthrew : Seen.threw ∉ log := fun h => nomatch hlog _ h
  have hreleased : Seen.released ∉ log := fun h => nomatch hlog _ h
  have hpersisted : ∀ result, Seen.persisted result ∉ log := fun _ h => nomatch hlog _ h
  have hholds : Holds (.acquired id :: log) :=
    ⟨⟨id, List.mem_cons_self⟩, by simp [hreleased], by simp [hpersisted]⟩
  refine (Prog.guarded_bind _ _ _).mpr ((Prog.guarded_tryCatch _ _ _).mpr
    ⟨⟨⟨id, rfl, List.mem_cons_self⟩, hholds, by simp [hthrew]⟩, fun s r _ => ?_⟩)
  cases r with
  | error e =>
    refine (Prog.guarded_bind _ _ _).mpr ⟨⟨by simp [observe], ?_⟩, fun s' r' _ => ?_⟩
    · exact ⟨⟨id, by simp [observe]⟩, by simp [observe, hreleased], by simp [observe, hpersisted]⟩
    · cases r' with
      | error e => exact fun _ => nofun
      | ok u => exact fun _ => nofun
  | ok result =>
    have hknown : Allowed req (.persisted result :: .acquired id :: log)
        (.markCompleted id result) := ⟨by simp, by simp⟩
    have hrest : ∀ {log' : List Seen}, .persisted result ∈ log' →
        ((postPersist result >>= fun _ => pure result : KeyOp ℕ)).Guarded can observe (Allowed req)
          (fun log' r => ∀ result, r = .ok result → Resulted log' result) log' := by
      intro log' hmem
      refine (Prog.guarded_bind _ _ _).mpr ⟨trivial, fun s r _ => ?_⟩
      cases r with
      | error e => exact fun _ => nofun
      | ok u =>
        rintro result' ⟨⟩
        exact Or.inl hmem
    refine (Prog.guarded_bind _ _ _).mpr ((Prog.guarded_swallow _ _).mpr
      ((Prog.guarded_tryCatch _ _ _).mpr ⟨hknown, fun s r _ => ?_⟩))
    cases r with
    | ok u => exact hrest (by simp [observe])
    | error e =>
      refine ⟨hknown, fun s' r' _ => ?_⟩
      exact hrest (by simp [observe])

/-- The result of a settled key is recovered. -/
theorem recoverSettled_allowed {r : IdempotencyRecord} (hr : .found r ∈ log) (hs : r.settled) :
    (recoverSettled keyErrors recover r).Guarded can observe (Allowed req)
      (fun log' r => ∀ result, r = .ok result → Resulted log' result) log := by
  refine (Prog.guarded_bind _ _ _).mpr ((Prog.guarded_orThrow _ _).mpr
    ⟨fun ref href => (Prog.guarded_bind _ _ _).mpr ⟨trivial, fun s r' _ => ?_⟩, fun _ _ => nofun⟩)
  cases r' with
  | error e => exact fun _ => nofun
  | ok u =>
    rintro result ⟨⟩
    exact Or.inr ⟨r, hr, hs, href⟩

/-- A failed key is taken over by one caller. -/
theorem reclaim_allowed {r : IdempotencyRecord} (hlog : Looking log) (hr : .found r ∈ log)
    (hhash : r.requestHash = req.requestHash) :
    (reclaim prismaStore keyErrors persist postPersist recover r).Guarded can observe
      (Allowed req) (fun log' r => ∀ result, r = .ok result → Resulted log' result) log := by
  refine (Prog.guarded_bind _ _ _).mpr ⟨⟨r, hr, rfl, hhash⟩, fun s answer _ => ?_⟩
  rcases answer with e | _ | _
  · exact fun _ => nofun
  · refine (Prog.guarded_ite _ _ _).mpr ⟨nofun, fun _ => (Prog.guarded_bind _ _ _).mpr
      ⟨trivial, fun s' found _ => ?_⟩⟩
    rcases found with e | _ | r'
    · exact fun _ => nofun
    · exact fun _ => nofun
    · refine (Prog.guarded_ite _ _ _).mpr ⟨fun hs => ?_, fun _ _ => nofun⟩
      exact recoverSettled_allowed List.mem_cons_self hs
  · refine (Prog.guarded_ite _ _ _).mpr ⟨fun _ => ?_, fun h => absurd rfl h⟩
    exact runAndSettle_allowed hlog

/-- A caller that finds the key taken recovers, takes over or throws. -/
theorem resume_allowed (err : KeyError) :
    (resume prismaStore keyErrors persist postPersist recover req.requestHash err).Guarded can
      observe (Allowed req) (fun log' r => ∀ result, r = .ok result → Resulted log' result) [] := by
  refine (Prog.guarded_bind _ _ _).mpr ⟨trivial, fun s found _ => ?_⟩
  rcases found with e | _ | r
  · exact fun _ => nofun
  · exact fun _ => nofun
  · refine (Prog.guarded_bind _ _ _).mpr ((Prog.guarded_orThrow _ _).mpr ⟨?_, nofun⟩)
    rintro r' ⟨⟩
    refine (Prog.guarded_bind _ _ _).mpr ((Prog.guarded_require _ _).mpr
      ⟨fun hhash => ?_, fun _ _ => nofun⟩)
    have hhash' : r.requestHash = req.requestHash := by simpa using hhash
    have hfound : Seen.found r ∈ observe .find s (.ok (some r)) ++ [] := List.mem_cons_self
    cases hstatus : r.status with
    | IN_PROGRESS => exact fun _ => nofun
    | COMPLETED => exact recoverSettled_allowed hfound (Or.inl hstatus)
    | UNKNOWN => exact recoverSettled_allowed hfound (Or.inr hstatus)
    | FAILED =>
      refine reclaim_allowed (fun o ho => ?_) hfound hhash'
      exact ⟨r, List.mem_singleton.mp ho⟩

/-- Every call of `withIdempotency` meets its guard. -/
theorem prog_allowed (key : IdempotencyKey) (req : KeyReq) :
    (req.prog key).Guarded can observe (Allowed req)
      (fun log' r => ∀ result, r = .ok result → Resulted log' result) [] := by
  refine (Prog.guarded_bind _ _ _).mpr ((Prog.guarded_tryCatch _ _ _).mpr
    ((Prog.guarded_bind _ _ _).mpr ⟨rfl, fun s r _ => ?_⟩))
  cases r with
  | ok id => exact runAndSettle_allowed nofun
  | error e =>
    refine (Prog.guarded_ite _ _ _).mpr ⟨fun _ => ?_, fun _ _ => nofun⟩
    exact resume_allowed e

end Guards

/-! ## The row and the objects -/

/-- What the row and the objects say about each other. -/
structure Sound (s : KeyRows) : Prop where
  once : s.objects.length ≤ 1
  absent : s.record = none → s.objects = []
  settled : ∀ {r : IdempotencyRecord}, s.record = some r → r.settled →
    ∃ result, r.resultRef = some result ∧ s.objects = [result]
  failed : ∀ {r : IdempotencyRecord}, s.record = some r → r.status = .FAILED → s.objects = []

/-- What stays as it is : the row with its id and its hash, the object, and that it is settled. -/
structure KeyRows.Later (s s' : KeyRows) : Prop where
  record : ∀ {r : IdempotencyRecord}, s.record = some r → ∃ r', s'.record = some r' ∧ r'.id = r.id ∧
    r'.requestHash = r.requestHash ∧ (r.settled → r'.settled)
  objects : ∀ {result : ℕ}, s.objects = [result] → s'.objects = [result]

/-- A fact a caller with the request knows is true in a store. -/
def Seen.Holds (req : KeyReq) (s : KeyRows) : Seen → Prop
  | .acquired id => ∃ r, s.record = some r ∧ r.id = id ∧ r.requestHash = req.requestHash
  | .found r => (∃ r', s.record = some r' ∧ r'.id = r.id ∧ r'.requestHash = r.requestHash) ∧
      (r.settled → ∃ result, r.resultRef = some result ∧ s.objects = [result])
  | .persisted result => s.objects = [result]
  | _ => True

theorem KeyRows.Later.refl (s : KeyRows) : s.Later s :=
  ⟨fun h => ⟨_, h, rfl, rfl, fun h => h⟩, fun h => h⟩

theorem KeyRows.Later.trans {s₁ s₂ s₃ : KeyRows} (h : s₁.Later s₂) (h' : s₂.Later s₃) :
    s₁.Later s₃ := by
  refine ⟨fun {r} hr => ?_, fun hobjects => h'.objects (h.objects hobjects)⟩
  obtain ⟨r₂, hr₂, hid₂, hhash₂, hs₂⟩ := h.record hr
  obtain ⟨r₃, hr₃, hid₃, hhash₃, hs₃⟩ := h'.record hr₂
  exact ⟨r₃, hr₃, hid₃.trans hid₂, hhash₃.trans hhash₂, fun hs => hs₃ (hs₂ hs)⟩

/-- What was seen holds later. -/
theorem Seen.Holds.later {req : KeyReq} {s s' : KeyRows} {o : Seen} (h : o.Holds req s)
    (hlater : s.Later s') : o.Holds req s' := by
  cases o with
  | acquired id =>
    obtain ⟨r, hr, hid, hhash⟩ := h
    obtain ⟨r', hr', hid', hhash', -⟩ := hlater.record hr
    exact ⟨r', hr', hid'.trans hid, hhash'.trans hhash⟩
  | found r =>
    obtain ⟨⟨r₁, hr₁, hid, hhash⟩, hsettled⟩ := h
    obtain ⟨r', hr', hid', hhash', -⟩ := hlater.record hr₁
    refine ⟨⟨r', hr', hid'.trans hid, hhash'.trans hhash⟩, fun hs => ?_⟩
    obtain ⟨result, href, hobjects⟩ := hsettled hs
    exact ⟨result, href, hlater.objects hobjects⟩
  | persisted result => exact hlater.objects h
  | _ => trivial

/-- Every caller's facts are true. One caller at most holds the row, which is then in progress,
and nothing is persisted. -/
structure Kept (c : Callers) : Prop where
  sound : Sound c.store
  facts : ∀ {i : ℕ} {req : KeyReq} {o : Seen}, c.reqOf i = some req → o ∈ c.own i →
    o.Holds req c.store
  holder : ∀ {i : ℕ}, Holds (c.own i) → ∃ r, c.store.record = some r ∧
    r.status = .IN_PROGRESS ∧ c.store.objects = []
  unique : ∀ {i j : ℕ}, Holds (c.own i) → Holds (c.own j) → i = j

/-! ## What a call changes -/

/-- What a call does to the store, with what is learned from it. -/
inductive Effect : Call → KeyRows → KeyRows → List Seen → Prop where
  | none {q : Call} {s : KeyRows} {seen : List Seen}
      (hseen : ∀ o ∈ seen, (∃ r, o = .found r ∧ s.record = some r) ∨ o = .threw ∨ o = .released) :
      Effect q s s seen
  | claim {requestHash id : ℕ} {s : KeyRows} {seen : List Seen} (hrecord : s.record = .none)
      (hseen : ∀ o ∈ seen, o = .acquired id) :
      Effect (.claim requestHash) s
        { s with record := some ⟨id, requestHash, .IN_PROGRESS, .none⟩ } seen
  | reclaim {s : KeyRows} {r : IdempotencyRecord} {seen : List Seen} (hrecord : s.record = some r)
      (hstatus : r.status = .FAILED) (hseen : ∀ o ∈ seen, o = .acquired r.id) :
      Effect (.reclaimFailed r.id) s
        { s with record := some { r with status := .IN_PROGRESS } } seen
  | persist {claimId : Option ℕ} {result : ℕ} {s : KeyRows} :
      Effect (.persist claimId) s { s with objects := s.objects ++ [result] } [.persisted result]
  | complete {s : KeyRows} {r : IdempotencyRecord} {result : ℕ} (hrecord : s.record = some r) :
      Effect (.markCompleted r.id result) s
        { s with record := some { r with status := .COMPLETED, resultRef := some result } } []
  | unknown {s : KeyRows} {r : IdempotencyRecord} {result : ℕ} (hrecord : s.record = some r) :
      Effect (.markUnknown r.id result) s
        { s with record := some { r with status := .UNKNOWN, resultRef := some result } } []
  | fail {s : KeyRows} {r : IdempotencyRecord} (hrecord : s.record = some r) :
      Effect (.markFailed r.id) s { s with record := some { r with status := .FAILED } } [.released]

section Effects

variable {s : KeyRows} {env : KeyEnv}

/-- An update by id changes the row of that id or nothing. -/
theorem update_cases (id : ℕ) (f : IdempotencyRecord → IdempotencyRecord) :
    (s.update id f).2 = s ∨ ∃ r, s.record = some r ∧ r.id = id ∧
      (s.update id f).2 = { s with record := some (f r) } := by
  rw [KeyRows.update]
  cases hrecord : s.record with
  | none => exact Or.inl rfl
  | some r =>
    dsimp only
    split
    · next hid => exact Or.inr ⟨r, rfl, hid, rfl⟩
    · exact Or.inl rfl

/-- A write of the row by its id takes effect on the row, or not at all. -/
theorem write_cases (env : KeyEnv) (s : KeyRows) (id : ℕ)
    (f : IdempotencyRecord → IdempotencyRecord) :
    (env.fate.settle KeyError.fault (s.update id f) s).2 = s ∨ ∃ r, s.record = some r ∧ r.id = id ∧
      (env.fate.settle KeyError.fault (s.update id f) s).2 = { s with record := some (f r) } := by
  rcases env.fate.settle_store KeyError.fault (s.update id f) s with h | h <;> rw [h]
  · exact Or.inl rfl
  · exact update_cases id f

/-- What a claim does, answered or not. -/
theorem claim_effect (requestHash : ℕ) :
    Effect (.claim requestHash) s ((Call.claim requestHash).exec env s).2
      (observe (.claim requestHash) s ((Call.claim requestHash).exec env s).1) := by
  have hexec : (Call.claim requestHash).exec env s =
      env.fate.settle .fault ((Call.claim requestHash).run env s) s := rfl
  rw [hexec, Call.run]
  cases hrecord : s.record with
  | some r => cases env.fate <;> exact .none nofun
  | none =>
    cases env.fate with
    | answered => exact .claim hrecord fun o ho => List.mem_singleton.mp ho
    | failed => exact .none nofun
    | lost => exact .claim hrecord nofun

/-- What a takeover does, answered or not. -/
theorem reclaim_effect (id : ℕ) :
    Effect (.reclaimFailed id) s ((Call.reclaimFailed id).exec env s).2
      (observe (.reclaimFailed id) s ((Call.reclaimFailed id).exec env s).1) := by
  have hexec : (Call.reclaimFailed id).exec env s =
      env.fate.settle .fault ((Call.reclaimFailed id).run env s) s := rfl
  rw [hexec, Call.run]
  cases hrecord : s.record with
  | none => cases env.fate <;> exact .none nofun
  | some r =>
    dsimp only
    by_cases hfailed : r.id = id ∧ r.status = .FAILED
    · rw [if_pos hfailed]
      obtain ⟨rfl, hstatus⟩ := hfailed
      cases env.fate with
      | answered => exact .reclaim hrecord hstatus fun o ho => List.mem_singleton.mp ho
      | failed => exact .none nofun
      | lost => exact .reclaim hrecord hstatus nofun
    · rw [if_neg hfailed]
      cases env.fate <;> exact .none nofun

/-- What a look at the row does. -/
theorem find_effect :
    Effect .find s (Call.find.exec env s).2 (observe .find s (Call.find.exec env s).1) := by
  have hexec : Call.find.exec env s = env.fate.settle .fault (.ok s.record, s) s := rfl
  rw [hexec]
  cases env.fate with
  | answered =>
    refine .none fun o ho => Or.inl ?_
    cases hrecord : s.record with
    | none => simp [Fate.settle, observe, hrecord] at ho
    | some r =>
      rw [Fate.settle, hrecord] at ho
      exact ⟨r, List.mem_singleton.mp ho, rfl⟩
  | failed => exact .none nofun
  | lost => exact .none nofun

/-- What a call does to the store. -/
theorem exec_effect (q : Call) (env : KeyEnv) (s : KeyRows) :
    Effect q s (q.exec env s).2 (observe q s (q.exec env s).1) := by
  cases q with
  | claim requestHash => exact claim_effect requestHash
  | find => exact find_effect
  | reclaimFailed id => exact reclaim_effect id
  | markCompleted id result =>
    have hexec : ((Call.markCompleted id result).exec env s).2 =
        (env.fate.settle .fault (s.update id _) s).2 := rfl
    rw [hexec]
    rcases write_cases env s id _ with h | ⟨r, hrecord, rfl, h⟩ <;> rw [h]
    · exact .none nofun
    · exact .complete hrecord
  | markUnknown id result =>
    have hexec : ((Call.markUnknown id result).exec env s).2 =
        (env.fate.settle .fault (s.update id _) s).2 := rfl
    rw [hexec]
    rcases write_cases env s id _ with h | ⟨r, hrecord, rfl, h⟩ <;> rw [h]
    · exact .none nofun
    · exact .unknown hrecord
  | markFailed id =>
    have hexec : ((Call.markFailed id).exec env s).2 =
        (env.fate.settle .fault (s.update id _) s).2 := rfl
    rw [hexec]
    rcases write_cases env s id _ with h | ⟨r, hrecord, rfl, h⟩ <;> rw [h]
    · exact .none fun o ho => Or.inr (Or.inr (List.mem_singleton.mp ho))
    · exact .fail hrecord
  | persist claimId =>
    rw [Call.exec]
    split
    · exact .persist
    · exact .none fun o ho => Or.inr (Or.inl (List.mem_singleton.mp ho))
  | postPersist result =>
    have hstore : ((Call.postPersist result).exec env s).2 = s := by
      rcases env.fate.settle_store .fault ((Call.postPersist result).run env s) s with h | h <;>
        exact h
    rw [hstore]
    exact .none nofun
  | recover id =>
    have hstore : ((Call.recover id).exec env s).2 = s := by
      rcases env.fate.settle_store .fault ((Call.recover id).run env s) s with h | h <;> exact h
    rw [hstore]
    exact .none nofun

end Effects

section Keeps

variable {c : Callers} {i : ℕ} {req : KeyReq} {q : Call} {s' : KeyRows} {seen : List Seen}

/-- A call leads to a later state. -/
theorem Kept.later (hI : Kept c) (hq : Allowed req (c.own i) q)
    (h : Effect q c.store s' seen) : c.store.Later s' := by
  cases h with
  | none => exact .refl _
  | claim hrecord => exact ⟨fun h => by simp [hrecord] at h, fun h => h⟩
  | reclaim hrecord hstatus =>
    refine ⟨fun {r'} h => ?_, fun h => h⟩
    obtain rfl := Option.some.inj (hrecord.symm.trans h)
    exact ⟨_, rfl, rfl, rfl, fun hs => by simp [IdempotencyRecord.settled, hstatus] at hs⟩
  | persist =>
    obtain ⟨-, -, -, hobjects⟩ := hI.holder hq.2.1
    exact ⟨fun h => ⟨_, h, rfl, rfl, fun h => h⟩, fun h => by simp [hobjects] at h⟩
  | complete hrecord =>
    refine ⟨fun {r'} h => ?_, fun h => h⟩
    obtain rfl := Option.some.inj (hrecord.symm.trans h)
    exact ⟨_, rfl, rfl, rfl, fun _ => Or.inl rfl⟩
  | unknown hrecord =>
    refine ⟨fun {r'} h => ?_, fun h => h⟩
    obtain rfl := Option.some.inj (hrecord.symm.trans h)
    exact ⟨_, rfl, rfl, rfl, fun _ => Or.inr rfl⟩
  | fail hrecord =>
    refine ⟨fun {r'} h => ?_, fun h => h⟩
    obtain rfl := Option.some.inj (hrecord.symm.trans h)
    obtain ⟨r', hr', hstatus, -⟩ := hI.holder hq.2
    obtain rfl := Option.some.inj (hrecord.symm.trans hr')
    exact ⟨_, rfl, rfl, rfl, fun hs => by simp [IdempotencyRecord.settled, hstatus] at hs⟩

/-- A settled row of the object that was persisted. -/
theorem sound_settled {s : KeyRows} {r : IdempotencyRecord} {result : ℕ}
    (hobjects : s.objects = [result]) (href : r.resultRef = some result)
    (hstatus : r.status ≠ .FAILED) : Sound { s with record := some r } := by
  refine ⟨by simp [hobjects], nofun, fun {r'} h _ => ?_, fun {r'} h hfailed => ?_⟩
  · obtain rfl := Option.some.inj h
    exact ⟨result, href, hobjects⟩
  · obtain rfl := Option.some.inj h
    exact absurd hfailed hstatus

/-- A row that is not settled, when nothing is persisted. -/
theorem sound_open {s : KeyRows} {r : IdempotencyRecord} (hobjects : s.objects = [])
    (hopen : ¬ r.settled) : Sound { s with record := some r } := by
  refine ⟨by simp [hobjects], nofun, fun {r'} h hs => ?_, fun {r'} _ _ => hobjects⟩
  obtain rfl := Option.some.inj h
  exact absurd hs hopen

/-- A call keeps the row sound. -/
theorem Kept.sound_of_effect (hI : Kept c) (hreq : c.reqOf i = some req)
    (hq : Allowed req (c.own i) q) (h : Effect q c.store s' seen) : Sound s' := by
  cases h with
  | none => exact hI.sound
  | claim hrecord =>
    exact sound_open (hI.sound.absent hrecord) (by simp [IdempotencyRecord.settled])
  | reclaim hrecord hstatus =>
    exact sound_open (hI.sound.failed hrecord hstatus) (by simp [IdempotencyRecord.settled])
  | persist =>
    obtain ⟨r, hrecord, hstatus, hobjects⟩ := hI.holder hq.2.1
    refine ⟨by simp [hobjects], fun h => ?_, fun {r'} h hs => ?_, fun {r'} h hfailed => ?_⟩
    · cases hrecord.symm.trans h
    · obtain rfl := Option.some.inj (hrecord.symm.trans h)
      simp [IdempotencyRecord.settled, hstatus] at hs
    · obtain rfl := Option.some.inj (hrecord.symm.trans h)
      rw [hstatus] at hfailed
      cases hfailed
  | complete hrecord => exact sound_settled (hI.facts hreq hq.2) rfl nofun
  | unknown hrecord => exact sound_settled (hI.facts hreq hq.2) rfl nofun
  | fail hrecord =>
    obtain ⟨-, -, -, hobjects⟩ := hI.holder hq.2
    exact sound_open hobjects (by simp [IdempotencyRecord.settled])

/-- What a call shows holds after it. -/
theorem Kept.seen_holds (hI : Kept c) (hreq : c.reqOf i = some req)
    (hq : Allowed req (c.own i) q) (h : Effect q c.store s' seen) :
    ∀ o ∈ seen, o.Holds req s' := by
  intro o ho
  cases h with
  | none hseen =>
    rcases hseen o ho with ⟨r, rfl, hr⟩ | rfl | rfl
    · exact ⟨⟨r, hr, rfl, rfl⟩, hI.sound.settled hr⟩
    · trivial
    · trivial
  | claim hrecord hseen =>
    rw [hseen o ho]
    exact ⟨_, rfl, rfl, hq⟩
  | reclaim hrecord hstatus hseen =>
    obtain ⟨r', hfound, -, hhash⟩ := hq
    obtain ⟨⟨r₁, hr₁, -, hhash₁⟩, -⟩ := hI.facts hreq hfound
    obtain rfl := Option.some.inj (hrecord.symm.trans hr₁)
    rw [hseen o ho]
    exact ⟨_, rfl, rfl, hhash₁.trans hhash⟩
  | persist =>
    obtain ⟨-, -, -, hobjects⟩ := hI.holder hq.2.1
    rw [List.mem_singleton.mp ho, Seen.Holds, hobjects]
    rfl
  | complete => cases ho
  | unknown => cases ho
  | fail =>
    rw [List.mem_singleton.mp ho]
    trivial

end Keeps

section Answer

variable {key : IdempotencyKey} {c : Callers} {i : ℕ} {env : KeyEnv} {req : KeyReq} {q : Call}
variable {k : Except KeyError (Answer q) → KeyOp ℕ}

/-- A caller that holds the row after a call held it before, or acquired it with the call. -/
theorem Holds.before {j : ℕ} (h : Holds ((c.answer (keys key) i env req q k).own j)) :
    Holds (c.own j) ∨ j = i ∧
      ∃ id, .acquired id ∈ observe q c.store (q.exec env c.store).1 := by
  obtain ⟨id, hid⟩ := h.acquired
  have hkept : Seen.released ∉ c.own j := fun hr => h.kept (Config.mem_own_answer hr)
  have hun : ∀ result, Seen.persisted result ∉ c.own j :=
    fun result hp => h.unpersisted result (Config.mem_own_answer hp)
  rcases Config.mem_own_of_answer hid with ⟨rfl, hobserved⟩ | hown
  · exact Or.inr ⟨rfl, id, hobserved⟩
  · exact Or.inl ⟨⟨id, hown⟩, hkept, hun⟩

/-- Acquiring the row finds it free : it is then in progress, and nobody held it. -/
theorem Kept.acquire (hI : Kept c) {s' : KeyRows} {seen : List Seen}
    (h : Effect q c.store s' seen) {id : ℕ} (hid : .acquired id ∈ seen) :
    (∃ r, s'.record = some r ∧ r.status = .IN_PROGRESS ∧ s'.objects = []) ∧
      ∀ j, ¬ Holds (c.own j) := by
  cases h with
  | none hseen =>
    rcases hseen _ hid with ⟨r, hr, -⟩ | hr | hr <;> cases hr
  | claim hrecord =>
    refine ⟨⟨_, rfl, rfl, hI.sound.absent hrecord⟩, fun j hj => ?_⟩
    obtain ⟨r, hr, -⟩ := hI.holder hj
    cases hrecord.symm.trans hr
  | reclaim hrecord hstatus =>
    refine ⟨⟨_, rfl, rfl, hI.sound.failed hrecord hstatus⟩, fun j hj => ?_⟩
    obtain ⟨r', hr', hprogress, -⟩ := hI.holder hj
    obtain rfl := Option.some.inj (hrecord.symm.trans hr')
    rw [hstatus] at hprogress
    cases hprogress
  | persist => cases List.mem_singleton.mp hid
  | complete => cases hid
  | unknown => cases hid
  | fail => cases List.mem_singleton.mp hid

/-- A caller that held the row and still does leaves it in progress. -/
theorem Kept.holder_answer (hI : Kept c) (hreq : c.reqOf i = some req)
    (hq : Allowed req (c.own i) q) {j : ℕ} (hbefore : Holds (c.own j))
    (h : Holds ((c.answer (keys key) i env req q k).own j)) :
    ∃ r, (q.exec env c.store).2.record = some r ∧ r.status = .IN_PROGRESS ∧
      (q.exec env c.store).2.objects = [] := by
  obtain ⟨r, hr, hstatus, hobjects⟩ := hI.holder hbefore
  have heffect := exec_effect q env c.store
  have hlearned : ∀ o ∈ observe q c.store (q.exec env c.store).1,
      o ∈ (c.answer (keys key) i env req q k).own i :=
    fun o ho => Config.mem_own.mpr (Config.mem_trace_of_observe ho)
  generalize hs' : (q.exec env c.store).2 = s' at heffect ⊢
  generalize hseen : observe q c.store (q.exec env c.store).1 = seen at heffect hlearned
  cases heffect with
  | none => exact ⟨r, hr, hstatus, hobjects⟩
  | claim hrecord => cases hrecord.symm.trans hr
  | reclaim hrecord hfailed =>
    obtain rfl := Option.some.inj (hrecord.symm.trans hr)
    rw [hstatus] at hfailed
    cases hfailed
  | @persist _ result =>
    obtain rfl := hI.unique hbefore hq.2.1
    exact absurd (hlearned _ List.mem_cons_self) (h.unpersisted result)
  | complete hrecord =>
    have hresult := hI.facts hreq hq.2
    rw [Seen.Holds, hobjects] at hresult
    cases hresult
  | unknown hrecord =>
    have hresult := hI.facts hreq hq.2
    rw [Seen.Holds, hobjects] at hresult
    cases hresult
  | fail hrecord =>
    obtain rfl := hI.unique hbefore hq.2
    exact absurd (hlearned _ List.mem_cons_self) h.kept

/-- A call keeps the invariant. -/
theorem Kept.answer (hI : Kept c) (ht : c.threads[i]? = some ⟨req, .call q k, true⟩)
    (hq : Allowed req (c.own i) q) : Kept (c.answer (keys key) i env req q k) := by
  have hreq : c.reqOf i = some req := Config.reqOf_of_thread ht
  have heffect := exec_effect q env c.store
  refine ⟨hI.sound_of_effect hreq hq heffect, fun {j req' o} hreq' ho => ?_, fun {j} hj => ?_,
    fun {j j'} hj hj' => ?_⟩
  · rw [Config.reqOf_answer ht] at hreq'
    rcases Config.mem_own_of_answer ho with ⟨rfl, hnew⟩ | hold
    · obtain rfl := Option.some.inj (hreq.symm.trans hreq')
      exact hI.seen_holds hreq hq heffect o hnew
    · exact (hI.facts hreq' hold).later (hI.later hq heffect)
  · rcases hj.before with hbefore | ⟨rfl, id, hid⟩
    · exact hI.holder_answer hreq hq hbefore hj
    · exact (hI.acquire heffect hid).1
  · rcases hj.before with hbefore | ⟨rfl, id, hid⟩ <;>
      rcases hj'.before with hbefore' | ⟨rfl, id', hid'⟩
    · exact hI.unique hbefore hbefore'
    · exact absurd hbefore ((hI.acquire heffect hid').2 j)
    · exact absurd hbefore' ((hI.acquire heffect hid).2 j')
    · rfl

end Answer

/-! ## Every run -/

/-- A caller that was just started knows nothing. -/
theorem Kept.spawn {key : IdempotencyKey} {c : Callers} {R : KeyRows → Prop}
    {G : KeyReq → List Seen → Call → Prop} {Q : KeyReq → List Seen → Except KeyError ℕ → Prop}
    (hc : Config.Conforms (keys key) R G Q c) (hI : Kept c) (req : KeyReq) :
    Kept (c.spawn (keys key) req) := by
  refine ⟨hI.sound, fun {i req' o} hreq ho => ?_, hI.holder, hI.unique⟩
  have hi : i ≠ c.threads.length := by
    rintro rfl
    rw [Config.own_spawn, hc.own_length (Nat.le_refl _)] at ho
    cases ho
  rw [Config.reqOf_spawn_of_ne hi] at hreq
  exact hI.facts hreq ho

theorem Kept.kill {c : Callers} {i : ℕ} {t : Thread Answer KeyError ℕ KeyReq} (hI : Kept c)
    (ht : c.threads[i]? = some t) : Kept (c.kill i t) := by
  refine ⟨hI.sound, fun {j req o} hreq ho => ?_, hI.holder, hI.unique⟩
  rw [Config.reqOf_kill ht] at hreq
  exact hI.facts hreq ho

/-- The key is new : it has no row, and no object was made for it. -/
def unclaimed : KeyRows := ⟨none, []⟩

/-- An unclaimed key meets the invariant. -/
theorem kept_init : Kept (Config.init unclaimed) := by
  have hown : ∀ i, (Config.init unclaimed : Callers).own i = [] := fun _ => rfl
  refine ⟨⟨Nat.zero_le 1, fun _ => rfl, nofun, nofun⟩, fun {i req o} _ ho => ?_,
    fun {i} h => ?_, fun {i j} h => ?_⟩
  · rw [hown] at ho
    cases ho
  · obtain ⟨id, hid⟩ := h.acquired
    rw [hown] at hid
    cases hid
  · obtain ⟨id, hid⟩ := h.acquired
    rw [hown] at hid
    cases hid

/-- The facts of a run, with the guards of its callers. -/
abbrev Guards (key : IdempotencyKey) (c : Callers) : Prop :=
  Config.Conforms (keys key) (fun _ => True) Allowed
    (fun _ log r => ∀ result, r = .ok result → Resulted log result) c

theorem run_kept (key : IdempotencyKey) (as : List (Action KeyEnv KeyReq)) :
    Guards key ((Config.init unclaimed).exec (keys key) as) ∧
      Kept ((Config.init unclaimed).exec (keys key) as) :=
  Config.run_invariant (A := fun _ _ => True) (fun req => prog_allowed key req)
    (fun _ _ _ _ => trivial) (fun hc hI _ => hI.spawn hc _)
    (fun _ hI _ ht hq => hI.answer ht hq) (fun _ hI _ ht => hI.kill ht) as
    (Config.conforms_init trivial) kept_init (Config.along_true as)

/-- A step leads to a later state. -/
theorem Kept.later_step {key : IdempotencyKey} {c : Callers} (hc : Guards key c) (hI : Kept c)
    (a : Action KeyEnv KeyReq) : c.store.Later (c.step (keys key) a).store := by
  rcases Config.step_cases (S := keys key) (c := c) a with heq | ⟨req, -, heq⟩ |
    ⟨i, env, req, q, k, -, ht, heq⟩ | ⟨i, t, -, -, heq⟩ <;> rw [heq]
  · exact .refl _
  · exact .refl _
  · exact hI.later (hc.guard ht) (exec_effect q env c.store)
  · exact .refl _

/-- What is settled in a run is settled in every longer one. -/
theorem run_later (key : IdempotencyKey) (as bs : List (Action KeyEnv KeyReq)) :
    ((Config.init unclaimed).exec (keys key) as).store.Later
      ((Config.init unclaimed).exec (keys key) (as ++ bs)).store := by
  induction bs generalizing as with
  | nil =>
    rw [List.append_nil]
    exact .refl _
  | cons a bs ih =>
    obtain ⟨hc, hI⟩ := run_kept key as
    have hstep := hI.later_step hc a
    have hrest := ih (as ++ [a])
    rw [List.append_assoc, Config.exec_append] at hrest
    exact hstep.trans hrest

/-- At most one execution for a key, in a configuration of its callers. -/
structure AtMostOnce (c : Callers) : Prop where
  /-- One `persist` succeeds at most. -/
  once : c.store.objects.length ≤ 1
  /-- No two run at a time. -/
  alone : ∀ {i j : ℕ} {claimId claimId' : Option ℕ}, c.next i = some (.persist claimId) →
    c.next j = some (.persist claimId') → i = j
  /-- None runs any more after one succeeded. -/
  last : ∀ {i : ℕ} {claimId : Option ℕ}, c.next i = some (.persist claimId) →
    c.store.objects = []
  /-- Only a caller with the payload hash of the first claimant runs it. -/
  sameRequest : ∀ {i : ℕ} {req : KeyReq} {claimId : Option ℕ}, c.reqOf i = some req →
    c.next i = some (.persist claimId) → ∃ r, c.store.record = some r ∧
      r.requestHash = req.requestHash
  /-- Every value that is returned is the object of the one success. -/
  result : ∀ {i : ℕ} {req : KeyReq} {result : ℕ} {live : Bool},
    c.threads[i]? = some ⟨req, .ret (.ok result), live⟩ → c.store.objects = [result]

/-- Of a configuration with the invariant one caller at most has written. -/
theorem Kept.atMostOnce {key : IdempotencyKey} {c : Callers} (hc : Guards key c) (hI : Kept c) :
    AtMostOnce c := by
  have hholds : ∀ {i : ℕ} {claimId : Option ℕ}, c.next i = some (.persist claimId) →
      ∃ req, c.reqOf i = some req ∧ Allowed req (c.own i) (.persist claimId) := by
    intro i claimId hn
    obtain ⟨req, k, ht⟩ := Config.call_of_next hn
    exact ⟨req, Config.reqOf_of_thread ht, hc.guard ht⟩
  refine ⟨hI.sound.once, fun hi hj => ?_, fun hi => ?_, fun {i req claimId} hreq hi => ?_,
    fun {i req result live} ht => ?_⟩
  · obtain ⟨-, -, -, hi', -⟩ := hholds hi
    obtain ⟨-, -, -, hj', -⟩ := hholds hj
    exact hI.unique hi' hj'
  · obtain ⟨-, -, -, hi', -⟩ := hholds hi
    obtain ⟨-, -, -, hobjects⟩ := hI.holder hi'
    exact hobjects
  · obtain ⟨-, -, ⟨id, -, hacquired⟩, -⟩ := hholds hi
    obtain ⟨r, hr, -, hhash⟩ := hI.facts hreq hacquired
    exact ⟨r, hr, hhash⟩
  · have hreq : c.reqOf i = some req := Config.reqOf_of_thread ht
    rcases hc.result ht result rfl with hpersisted | ⟨r, hfound, hs, href⟩
    · exact hI.facts hreq hpersisted
    · obtain ⟨-, hsettled⟩ := hI.facts hreq hfound
      obtain ⟨result', href', hobjects⟩ := hsettled hs
      obtain rfl := Option.some.inj (href.symm.trans href')
      exact hobjects

/-- Idempotency keys execute at most once. In every run of callers of one key, whichever calls
fail and whichever callers crash, `persist` succeeds once at most, never runs twice at a time
and never for another payload than the first claimant's, and every value that is returned is
that of the one success. In every continuation the row keeps its payload hash, and stays
settled once it is. -/
theorem executed_once (key : IdempotencyKey) (as : List (Action KeyEnv KeyReq)) :
    AtMostOnce ((Config.init unclaimed).exec (keys key) as) ∧
      ∀ (bs : List (Action KeyEnv KeyReq)) (r : IdempotencyRecord),
        ((Config.init unclaimed).exec (keys key) as).store.record = some r →
        ∃ r', ((Config.init unclaimed).exec (keys key) (as ++ bs)).store.record = some r' ∧
          r'.requestHash = r.requestHash ∧ (r.settled → r'.settled) := by
  obtain ⟨hc, hI⟩ := run_kept key as
  refine ⟨hI.atMostOnce hc, fun bs r hr => ?_⟩
  obtain ⟨r', hr', -, hhash, hs⟩ := (run_later key as bs).record hr
  exact ⟨r', hr', hhash, hs⟩

end Sails.Idempotency
