import SailsProtocol.Capability.Authority

/-!
# Requests beside each other

Each request is what it was asked for (`prog_guarded`), so every commit of a run was asked for by
the holder of the authority it is about (`Asked`), and what a request was told is in the history
(`Backed`).

`equivalent_grants_not_both_live` : two grants that say the same are never live at once.
`authorization_cites_live_grant` : an operation is authorized under a grant that its initiator
asked for, that covers it and that was neither revoked nor expired. `operation_keeps_its_facts` :
an operation is let through with the facts it was first authorized with, and no others, and again
when it is retried. `revoked_by_holder` : only its holder revokes a grant. `grant_effective` : a
grant that was given opens both gates until it expires or is revoked.
-/

namespace Sails.Capability

open Async Text
open Async.History (Lawful)

variable {p : Platform}

/-! ## What a request sees -/

/-- What a call tells about grants and authorizations. -/
inductive Seen where
  | obtained (grant : Grant)
  | loaded (grant : Grant)
  | authorized (authorization : Authorization)

/-- What a call shows when it is answered. -/
def observe : (q : Call) → Store → Except CapabilityError (Answer q) → List Seen
  | .create _, _, .ok g => [.obtained g]
  | .findById _, _, .ok (some g) => [.loaded g]
  | .authorize _ _ _, _, .ok a => [.authorized a]
  | _, _, _ => []

variable (p) in
/-- The capability routes and the gate in front of a broadcast. -/
abbrev capabilities : System Answer CapabilityError Reply Store Env Request Seen where
  exec := Call.exec p
  observe := observe
  prog := Request.prog p

/-- The tables and the requests to the routes and the gate. -/
abbrev Server := Config Answer CapabilityError Reply Store Request Seen

/-- Before any request. -/
def unused : Server := Config.init ⟨[], [], []⟩

/-! ## What each call rests on -/

/-- The call changes nothing. -/
def Call.reads : Call → Bool
  | .create _ => false
  | .markRevoked _ => false
  | .authorize _ _ _ => false
  | _ => true

section Guards

variable (p)

/-- When each call is made. -/
inductive Asks (log : List Seen) : Request → Call → Prop
  | create (participantId capabilityName : JsString) (scope : List JsString)
    (constraints : Option ParsedJson)
    (hcanonical : assertCanonicalCapabilityGrant capabilityName scope = .ok ()) :
    Asks log (.register participantId capabilityName scope constraints)
      (.create ⟨participantId, capabilityName, scope, constraints, participantId⟩)
  | markRevoked (grant : Grant) (hloaded : .loaded grant ∈ log) :
    Asks log (.revoke grant.id grant.grantedTo) (.markRevoked grant)
  | authorize (pending : PendingExecutionFacts) (scope : JsString)
    (hscope : requiredScope pending.kind = some scope) :
    Asks log (.commit pending)
      (.authorize pending scope (capabilityOperationDigest p pending))
  | read (req : Request) (q : Call) (hreads : q.reads = true) : Asks log req q

/-- What the reply rests on. -/
def Over (req : Request) (log : List Seen) : Except CapabilityError Reply → Prop
  | .ok (.granted g) => ∃ participantId capabilityName scope constraints,
      req = .register participantId capabilityName scope constraints ∧ .obtained g ∈ log ∧
      (∀ s ∈ scope, s ∈ g.scope) ∧ g.grantedTo = participantId ∧
      g.capabilityName = capabilityName
  | .ok (.authorized (some a)) => ∃ pending scope, req = .commit pending ∧
      .authorized a ∈ log ∧ p.enforceCapabilities = true ∧
      requiredScope pending.kind = some scope ∧
      a.For pending scope (capabilityOperationDigest p pending)
  | _ => True

/-- The answers of the model. -/
abbrev can : ∀ q : Call, Store → Except CapabilityError (Answer q) → Prop :=
  Config.Answerable (capabilities p) (Sound p)

variable {p}

/-- The answer of `create` covers what was asked for. -/
theorem covers_of_create {input : GrantInput} {s : Store} {g : Grant}
    (h : can p (.create input) s (.ok g)) : (∀ sc ∈ input.scope, sc ∈ g.scope) ∧
      g.grantedTo = input.grantedTo ∧ g.capabilityName = input.capabilityName := by
  obtain ⟨-, env, heq⟩ := h
  have hrun := exec_ok heq
  rcases create_cases (p := p) (s := s) env input with ⟨e, herr⟩ | ⟨g', s', hok, -, -, hcovers⟩
  · cases heq.symm.trans (congrArg Prod.fst (hrun.trans herr))
  · obtain rfl : g = g' :=
      Except.ok.inj (heq.symm.trans (congrArg Prod.fst (hrun.trans hok)))
    rcases hcovers with hsame | hc
    · rw [hsame]
      exact ⟨fun _ h => h, rfl, rfl⟩
    · exact ⟨hc.scope, hc.grantedTo, hc.capabilityName⟩

theorem id_of_found {grantId : JsString} {s : Store} {g : Grant}
    (h : can p (.findById grantId) s (.ok (some g))) : g.id = grantId := by
  obtain ⟨-, env, heq⟩ := h
  have hrun := exec_ok heq
  have hfind := heq.symm.trans (congrArg Prod.fst hrun)
  obtain ⟨row, hrow, rfl⟩ := Option.map_eq_some_iff.mp (Except.ok.inj hfind).symm
  simpa using List.find?_some hrow

/-- An authorization that is answered is the one of the operation. -/
theorem for_of_authorized {pending : PendingExecutionFacts} {scope operationDigest : JsString}
    {s : Store} {a : Authorization}
    (h : can p (.authorize pending scope operationDigest) s (.ok a)) :
    a.For pending scope operationDigest := by
  obtain ⟨-, env, heq⟩ := h
  have hrun := exec_ok heq
  rcases authorize_cases (p := p) (s := s) env pending scope operationDigest with
    ⟨e, herr⟩ | ⟨a', s', hok, -, -, hfor⟩
  · cases heq.symm.trans (congrArg Prod.fst (hrun.trans herr))
  · obtain rfl : a = a' :=
      Except.ok.inj (heq.symm.trans (congrArg Prod.fst (hrun.trans hok)))
    exact hfor

/-- Every request is what it was asked for, and its reply rests on what it saw. -/
theorem prog_guarded (req : Request) :
    (req.prog p).Guarded (can p) observe (fun log q => Asks p log req q) (Over p req) [] := by
  cases req with
  | register participantId capabilityName scope constraints =>
    refine (Prog.guarded_bind _ _ _).mpr ((Prog.guarded_require _ _).mpr
      ⟨fun hbody => ?_, fun _ => trivial⟩)
    refine (Prog.guarded_bind _ _ _).mpr ?_
    unfold grant
    cases hcanonical : assertCanonicalCapabilityGrant capabilityName scope with
    | error e => trivial
    | ok u =>
      refine ⟨.create participantId capabilityName scope constraints hcanonical,
        fun s r hr => ?_⟩
      cases r with
      | error e => trivial
      | ok g =>
        obtain ⟨hscope, hto, hname⟩ := covers_of_create hr
        exact ⟨participantId, capabilityName, scope, constraints, rfl, List.mem_cons_self, hscope,
          hto, hname⟩
  | revoke grantId requestedBy =>
    refine (Prog.guarded_bind _ _ _).mpr ((Prog.guarded_require _ _).mpr
      ⟨fun hbody => ?_, fun _ => trivial⟩)
    refine (Prog.guarded_bind _ _ _).mpr ?_
    refine (Prog.guarded_bind _ _ _).mpr ⟨.read _ _ rfl, fun s r hr => ?_⟩
    rcases r with e | _ | g
    · trivial
    · trivial
    · obtain rfl := id_of_found hr
      refine (Prog.guarded_ite (g.grantedTo ≠ requestedBy) _ _).mpr
        ⟨fun _ => trivial, fun howner => ?_⟩
      obtain rfl := not_not.mp howner
      refine ⟨.markRevoked g List.mem_cons_self, fun s' r' _ => ?_⟩
      rcases r' with e | _ <;> trivial
  | list participantId =>
    refine (Prog.guarded_bind _ _ _).mpr ((Prog.guarded_require _ _).mpr
      ⟨fun hbody => ?_, fun _ => trivial⟩)
    refine (Prog.guarded_bind _ _ _).mpr ⟨.read _ _ rfl, fun s r _ => ?_⟩
    rcases r with e | l <;> trivial
  | check grantedTo capabilityName scope =>
    refine (Prog.guarded_bind _ _ _).mpr ((Prog.guarded_bind _ _ _).mpr
      ⟨.read _ _ rfl, fun s r _ => ?_⟩)
    rcases r with e | l
    · trivial
    · refine (Prog.guarded_bind _ _ _).mpr ⟨.read _ _ rfl, fun s' r' _ => ?_⟩
      rcases r' with e | now <;> trivial
  | commit pending =>
    refine (Prog.guarded_bind _ _ _).mpr ?_
    unfold authorizePendingExecution
    split_ifs with hflag
    · trivial
    · cases hscope : requiredScope pending.kind with
      | none => trivial
      | some scope =>
        refine (Prog.guarded_bind _ _ _).mpr ⟨.authorize pending scope hscope, fun s r hr => ?_⟩
        cases r with
        | error e => trivial
        | ok a =>
          exact ⟨pending, scope, rfl, List.mem_cons_self, eq_true_of_ne_false hflag, hscope,
            for_of_authorized hr⟩

end Guards

/-! ## What a run knows -/

/-- What a request was told is in the history. -/
def Backed (h : List Commit) : Seen → Prop
  | .obtained g => ∃ now, .granted g now ∈ h
  | .loaded g => ∃ now, .granted g now ∈ h
  | .authorized a => ∃ now, .authorized a now ∈ h

section Runs

variable (p)

/-- What took effect was asked for by the holder of the authority it is about. -/
def Asked (c : Server) : Commit → Prop
  | .granted g _ => g.issuedBy = g.grantedTo ∧
      assertCanonicalCapabilityGrant g.capabilityName g.scope = .ok () ∧
      ∃ i, c.reqOf i = some (.register g.grantedTo g.capabilityName g.scope g.constraints)
  | .revoked grantId _ => ∃ g now, .granted g now ∈ c.store.commits ∧ g.id = grantId ∧
      ∃ i, c.reqOf i = some (.revoke grantId g.grantedTo)
  | .authorized a _ => ∃ pending scope, requiredScope pending.kind = some scope ∧
      a.For pending scope (capabilityOperationDigest p pending) ∧
      ∃ i, c.reqOf i = some (.commit pending)

/-- What holds of every reached configuration. -/
structure Known (c : Server) : Prop where
  backed : ∀ {i o}, o ∈ c.own i → Backed c.store.commits o
  asked : ∀ {e}, e ∈ c.store.commits → Asked p c e

variable {p} {c c' : Server}

theorem Effect.commits_subset {s s' : Store} {q : Call} (h : Effect p s q s') :
    s.commits ⊆ s'.commits := by
  cases h with
  | nothing => exact List.Subset.refl _
  | granted => exact List.subset_cons_self _ _
  | revoked => exact List.subset_cons_self _ _
  | authorized => exact List.subset_cons_self _ _

theorem Backed.mono {h h' : List Commit} (hsub : h ⊆ h') {o : Seen} (ho : Backed h o) :
    Backed h' o := by
  cases o with
  | obtained g => exact ho.imp fun _ hmem => hsub hmem
  | loaded g => exact ho.imp fun _ hmem => hsub hmem
  | authorized a => exact ho.imp fun _ hmem => hsub hmem

/-- What was asked for stays asked for. -/
theorem Asked.mono {e : Commit} (hsub : c.store.commits ⊆ c'.store.commits)
    (hreq : ∀ i req, c.reqOf i = some req → c'.reqOf i = some req) (h : Asked p c e) :
    Asked p c' e := by
  cases e with
  | granted g now =>
    obtain ⟨hissued, hcanonical, i, hi⟩ := h
    exact ⟨hissued, hcanonical, i, hreq i _ hi⟩
  | revoked grantId now =>
    obtain ⟨g, now', hmem, hid, i, hi⟩ := h
    exact ⟨g, now', hsub hmem, hid, i, hreq i _ hi⟩
  | authorized a now =>
    obtain ⟨pending, scope, hscope, hfor, i, hi⟩ := h
    exact ⟨pending, scope, hscope, hfor, i, hreq i _ hi⟩

/-- What is known depends on the tables, the logs and the requests alone. -/
theorem Known.same (h : Known p c) (hstore : c'.store = c.store) (hown : ∀ i, c'.own i = c.own i)
    (hreq : ∀ i req, c.reqOf i = some req → c'.reqOf i = some req) : Known p c' where
  backed ho := by
    rw [hstore]
    exact h.backed (hown _ ▸ ho)
  asked he := by
    rw [hstore] at he
    exact (h.asked he).mono (by rw [hstore]; exact List.Subset.refl _) hreq

/-- What a call is answered is in the history after it. -/
theorem backed_of_observe {s : Store} (hs : Sound p s) {q : Call} {env : Env} {o : Seen}
    (ho : o ∈ observe q s (q.exec p env s).1) : Backed (q.exec p env s).2.commits o := by
  have hsound := hs.effect (exec_effect q env s)
  cases q with
  | create input =>
    cases hr : (Call.exec p (.create input) env s).1 with
    | error e =>
      rw [hr] at ho
      cases ho
    | ok g =>
      rw [hr] at ho
      obtain rfl := List.mem_singleton.mp ho
      have hrun := exec_ok hr
      rcases create_cases (p := p) (s := s) env input with
        ⟨e, herr⟩ | ⟨g', s', hok, -, ⟨row, hrow, rfl, -⟩, -⟩
      · cases hr.symm.trans (congrArg Prod.fst (hrun.trans herr))
      · obtain rfl := Except.ok.inj (hr.symm.trans (congrArg Prod.fst (hrun.trans hok)))
        have hstore : (Call.exec p (.create input) env s).2 = s' :=
          congrArg Prod.snd (hrun.trans hok)
        rw [hstore] at hsound ⊢
        exact hsound.given hrow
  | findById grantId =>
    rcases hr : (Call.exec p (.findById grantId) env s).1 with e | _ | g
    · rw [hr] at ho
      cases ho
    · rw [hr] at ho
      cases ho
    · rw [hr] at ho
      obtain rfl := List.mem_singleton.mp ho
      have hfind := hr.symm.trans (congrArg Prod.fst (exec_ok hr))
      obtain ⟨row, hrow, rfl⟩ := Option.map_eq_some_iff.mp (Except.ok.inj hfind).symm
      exact (hs.given (List.mem_of_find?_eq_some hrow)).imp fun _ hmem =>
        (exec_effect _ env s).commits_subset hmem
  | markRevoked grant => cases ho
  | findActiveGrants grantedTo capabilityName => cases ho
  | listActiveGrants grantedTo => cases ho
  | now => cases ho
  | authorize pending scope operationDigest =>
    cases hr : (Call.exec p (.authorize pending scope operationDigest) env s).1 with
    | error e =>
      rw [hr] at ho
      cases ho
    | ok a =>
      rw [hr] at ho
      obtain rfl := List.mem_singleton.mp ho
      have hrun := exec_ok hr
      rcases authorize_cases (p := p) (s := s) env pending scope operationDigest with
        ⟨e, herr⟩ | ⟨a', s', hok, -, hmem, -⟩
      · cases hr.symm.trans (congrArg Prod.fst (hrun.trans herr))
      · obtain rfl := Except.ok.inj (hr.symm.trans (congrArg Prod.fst (hrun.trans hok)))
        have hstore : (Call.exec p (.authorize pending scope operationDigest) env s).2 = s' :=
          congrArg Prod.snd (hrun.trans hok)
        rw [hstore] at hsound ⊢
        exact hsound.authorized.mp hmem

section Answer

variable {log : List Seen} {req : Request}

/-- A grant is created for its holder. -/
theorem Asks.of_create {input : GrantInput} (h : Asks p log req (.create input)) :
    req = .register input.grantedTo input.capabilityName input.scope input.constraints ∧
      input.issuedBy = input.grantedTo ∧
      assertCanonicalCapabilityGrant input.capabilityName input.scope = .ok () := by
  cases h with
  | create participantId capabilityName scope constraints hcanonical =>
    exact ⟨rfl, rfl, hcanonical⟩
  | read _ _ hreads => cases hreads

theorem Asks.of_markRevoked {grant : Grant} (h : Asks p log req (.markRevoked grant)) :
    req = .revoke grant.id grant.grantedTo ∧ .loaded grant ∈ log := by
  cases h with
  | markRevoked _ hloaded => exact ⟨rfl, hloaded⟩
  | read _ _ hreads => cases hreads

theorem Asks.of_authorize {pending : PendingExecutionFacts} {scope operationDigest : JsString}
    (h : Asks p log req (.authorize pending scope operationDigest)) :
    req = .commit pending ∧ requiredScope pending.kind = some scope ∧
      operationDigest = capabilityOperationDigest p pending := by
  cases h with
  | authorize _ _ hscope => exact ⟨rfl, hscope, rfl⟩
  | read _ _ hreads => cases hreads

/-- A call keeps what is known. -/
theorem Known.answer (hs : Sound p c.store) (h : Known p c) {i : ℕ} {env : Env} {q : Call}
    {k : Except CapabilityError (Answer q) → CapabilityOp Reply}
    (ht : c.threads[i]? = some ⟨req, .call q k, true⟩) (hg : Asks p (c.own i) req q) :
    Known p (c.answer (capabilities p) i env req q k) := by
  have heffect : Effect p c.store q (c.answer (capabilities p) i env req q k).store :=
    exec_effect q env c.store
  have hreq : ∀ j req', c.reqOf j = some req' →
      (c.answer (capabilities p) i env req q k).reqOf j = some req' := by
    intro j req' hj
    rw [Config.reqOf_answer ht]
    exact hj
  have hthis := hreq i req (Config.reqOf_of_thread ht)
  refine ⟨fun ho => ?_, fun he => ?_⟩
  · rcases Config.mem_own_of_answer ho with ⟨-, hnew⟩ | hold
    · exact backed_of_observe hs hnew
    · exact (h.backed hold).mono heffect.commits_subset
  · have hold : ∀ {e}, e ∈ c.store.commits → Asked p (c.answer (capabilities p) i env req q k) e :=
      fun hmem => (h.asked hmem).mono heffect.commits_subset hreq
    generalize hc' : c.answer (capabilities p) i env req q k = c' at *
    generalize hs' : c'.store = s' at *
    cases heffect with
    | nothing => exact hold he
    | granted g now =>
      rcases List.mem_cons.mp he with rfl | he
      · obtain ⟨rfl, hissued, hcanonical⟩ := hg.of_create
        exact ⟨hissued, hcanonical, i, hthis⟩
      · exact hold he
    | revoked grant now hrow =>
      rcases List.mem_cons.mp he with rfl | he
      · obtain ⟨rfl, hloaded⟩ := hg.of_markRevoked
        obtain ⟨now', hgiven⟩ := h.backed hloaded
        refine ⟨grant, now', ?_, rfl, i, hthis⟩
        rw [hs']
        exact List.mem_cons_of_mem _ hgiven
      · exact hold he
    | authorized pending scope operationDigest a now hfor row hrow hlive hcites hnew =>
      rcases List.mem_cons.mp he with rfl | he
      · obtain ⟨rfl, hscope, rfl⟩ := hg.of_authorize
        exact ⟨pending, scope, hscope, hfor, i, hthis⟩
      · exact hold he

end Answer

/-- The invariant of every reached configuration, with the guards. -/
abbrev Reached (p : Platform) (c : Server) : Prop :=
  Config.Conforms (capabilities p) (Sound p) (fun req log q => Asks p log req q) (Over p) c

theorem sound_unused : Sound p unused.store where
  lawful := trivial
  given h := by cases h
  kept h := by cases h
  revoked h := by cases h
  known h := by cases h
  authorized := iff_of_false (fun h => by cases h) fun ⟨_, h⟩ => by cases h

theorem known_unused : Known p unused where
  backed h := by cases h
  asked h := by cases h

/-- Every run is guarded, and what it did was asked for. -/
theorem reached (p : Platform) (as : List (Action Env Request)) :
    Reached p (unused.exec (capabilities p) as) ∧ Known p (unused.exec (capabilities p) as) :=
  Config.run_invariant (S := capabilities p) (A := fun _ _ => True) prog_guarded
    (fun q env _ hs => hs.effect (exec_effect q env _))
    (fun {c req} _ h _ => h.same rfl (fun _ => rfl) fun _ _ hreq =>
      Config.reqOf_step hreq (.start req))
    (fun hc h _ ht hg => h.answer hc.store ht hg)
    (fun {c i t} _ h _ ht => h.same rfl (fun _ => rfl) fun j _ hreq => by
      rw [Config.reqOf_kill ht]
      exact hreq)
    as (Config.conforms_init sound_unused)
    known_unused (Config.along_true as)

end Runs

/-! ## A sample run -/

/-- Dates in the form the clock writes, the identity in place of the hash, and the gate on. -/
def samplePlatform : Platform where
  newDate
    | .str s => newDate s
    | _ => none
  sha256 := id
  enforceCapabilities := true

/-- Constraints that expire at the start of 2026. -/
def sampleConstraints : ParsedJson :=
  ⟨.obj [(js "expiresAt", .str (js "2026-01-01T00:00:00.000Z"))],
    List.nodup_singleton _, trivial, trivial⟩

/-- Alice registers the release of escrows for itself. -/
def sampleRegister : Request :=
  .register (js "alice") settlement [js "settlement.escrow.released"] (some sampleConstraints)

/-- A release that Alice asked for. -/
def samplePending : PendingExecutionFacts where
  id := js "operation"
  escrowId := js "escrow"
  kind := js "release"
  toAddress := js "bc1q"
  toAddressSecondary := none
  buyerBps := none
  feeCollectionSats := some 500
  feeCollectionWaived := some false
  minerFeeSats := some 300
  unsignedPsbtBase64 := js "cHNidA=="
  requiredSigners := [js "buyer", js "seller"]
  triggeredBy := js "alice"

/-- A time before the constraints expire, with the id of the row that is written. -/
def early (id : JsString) : Env := ⟨.answered, 1700000000000, id, 1700000000000⟩

/-- A time after the constraints have expired. -/
def late (id : JsString) : Env := ⟨.answered, 1800000000000, id, 1800000000000⟩

/-- A grant is registered and a release authorized under it. -/
def sampleAuthorizing : List (Action Env Request) :=
  Config.serve 0 sampleRegister 2 (early (js "first")) ++
    Config.serve 1 (.commit samplePending) 2 (early (js "authorization"))

/-- The same grant is registered again after it has expired. -/
def sampleRenewing : List (Action Env Request) :=
  Config.serve 2 sampleRegister 2 (late (js "second"))

/-- The new grant is revoked and the release brought to the gate again. -/
def sampleRetrying : List (Action Env Request) :=
  Config.serve 3 (.revoke (js "second") (js "alice")) 2 (late []) ++
    Config.serve 4 (.commit samplePending) 2 (late [])

/-- The server after a run of the sample. -/
def sampleServer (as : List (Action Env Request)) : Server :=
  unused.exec (capabilities samplePlatform) as

/-- The grant a request was answered with. -/
def granted? : Option (Except CapabilityError Reply) → Option Grant
  | some (.ok (.granted g)) => some g
  | _ => none

/-- The authorization a request was let through with. -/
def authorized? : Option (Except CapabilityError Reply) → Option Authorization
  | some (.ok (.authorized a)) => a
  | _ => none

theorem of_granted? {r : Option (Except CapabilityError Reply)} {g : Grant}
    (h : granted? r = some g) : r = some (.ok (.granted g)) := by
  unfold granted? at h
  split at h
  · rw [Option.some.inj h]
  · cases h

theorem of_authorized? {r : Option (Except CapabilityError Reply)} {a : Authorization}
    (h : authorized? r = some a) : r = some (.ok (.authorized (some a))) := by
  unfold authorized? at h
  split at h
  · rw [h]
  · cases h

/-- The release of the sample was let through as a thread of its own. -/
theorem sample_authorized (as : List (Action Env Request)) (i : ℕ)
    (hreq : (as.filterMap Action.started)[i]? = some (.commit samplePending))
    (h : (authorized? ((sampleServer as).result? i)).isSome = true) :
    ∃ a live, (sampleServer as).threads[i]? =
      some ⟨.commit samplePending, .ret (.ok (.authorized (some a))), live⟩ := by
  obtain ⟨a, ha⟩ := Option.isSome_iff_exists.mp h
  exact ⟨a, Config.thread_of_run hreq (of_authorized? ha)⟩

/-! ## What grants authorize -/

section Results

/-- Two grants that say the same are never live at once : when neither is revoked, one of them
is past its expiry, as `create` tests it, from the time on at which both have been given. -/
theorem equivalent_grants_not_both_live (p : Platform) (as : List (Action Env Request)) :
    let c := unused.exec (capabilities p) as
    ∀ row ∈ c.store.grants, ∀ row' ∈ c.store.grants, row.id ≠ row'.id →
      Covers row.toGrantInput row'.toGrantInput → Covers row'.toGrantInput row.toGrantInput →
      row.revokedAt = none → row'.revokedAt = none →
      ∃ t t', .granted row.toGrant t ∈ c.store.commits ∧
        .granted row'.toGrant t' ∈ c.store.commits ∧ ∀ now, t ≤ now → t' ≤ now →
          isPastExpiry p row.constraints now = true ∨
            isPastExpiry p row'.constraints now = true := by
  intro c row hrow row' hrow' hid hc hc' hlive hlive'
  have hs : Sound p c.store := (reached p as).1.store
  obtain ⟨t, hgiven⟩ := hs.given hrow
  obtain ⟨t', hgiven'⟩ := hs.given hrow'
  refine ⟨t, t', hgiven, hgiven', fun now ht ht' => ?_⟩
  exact not_both_live hs.lawful hgiven hgiven' hid ((hs.revoked hrow).mp hlive)
    ((hs.revoked hrow').mp hlive') hc hc' ht ht'

/-- The grant of the sample that was registered again is another one, and the first has expired. -/
theorem sample_equivalent_grants :
    let c := sampleServer (sampleAuthorizing ++ sampleRenewing)
    ∃ row ∈ c.store.grants, ∃ row' ∈ c.store.grants, row.id ≠ row'.id ∧
      ∃ t t', .granted row.toGrant t ∈ c.store.commits ∧
        .granted row'.toGrant t' ∈ c.store.commits ∧ ∀ now, t ≤ now → t' ≤ now →
          isPastExpiry samplePlatform row.constraints now = true ∨
            isPastExpiry samplePlatform row'.constraints now = true := by
  intro c
  obtain ⟨row, hrow, row', hrow', hid⟩ : ∃ row ∈ c.store.grants, ∃ row' ∈ c.store.grants,
      row.id ≠ row'.id := by decide +kernel
  have hsame : ∀ g ∈ c.store.grants, ∀ g' ∈ c.store.grants, g.grantedTo = g'.grantedTo ∧
      g.capabilityName = g'.capabilityName ∧ g.issuedBy = g'.issuedBy ∧
      (∀ sc ∈ g'.scope, sc ∈ g.scope) ∧ sameConstraints g.constraints g'.constraints = true := by
    decide +kernel
  have hcovers : ∀ g ∈ c.store.grants, ∀ g' ∈ c.store.grants,
      Covers g.toGrantInput g'.toGrantInput := by
    intro g hg g' hg'
    obtain ⟨hto, hname, hissued, hscope, hconstraints⟩ := hsame g hg g' hg'
    exact ⟨hto, hname, hissued, hscope, hconstraints⟩
  have hlive : ∀ g ∈ c.store.grants, g.revokedAt = none := by decide +kernel
  exact ⟨row, hrow, row', hrow', hid, equivalent_grants_not_both_live samplePlatform
    (sampleAuthorizing ++ sampleRenewing) row hrow row' hrow' hid (hcovers row hrow row' hrow')
    (hcovers row' hrow' row hrow) (hlive row hrow) (hlive row' hrow')⟩

/-- The authorization a request was let through with is in the history. -/
theorem Reached.authorized {c : Server} (hc : Reached p c) (hknown : Known p c) {i : ℕ}
    {pending : PendingExecutionFacts} {a : Authorization} {live : Bool}
    (ht : c.threads[i]? = some ⟨.commit pending, .ret (.ok (.authorized (some a))), live⟩) :
    (∃ now, .authorized a now ∈ c.store.commits) ∧ p.enforceCapabilities = true ∧ ∃ scope,
      requiredScope pending.kind = some scope ∧
      a.For pending scope (capabilityOperationDigest p pending) := by
  obtain ⟨pending', scope, heq, hseen, hflag, hscope, hfor⟩ := hc.result ht
  cases heq
  exact ⟨hknown.backed hseen, hflag, scope, hscope, hfor⟩

/-- An authorization was committed under a grant that its initiator had asked for, that covers
the operation and that was neither revoked nor expired at the commit. -/
theorem authorization_cites_live_grant (p : Platform) (as : List (Action Env Request)) :
    let c := unused.exec (capabilities p) as
    ∀ (h₁ h₂ : List Commit) (a : Authorization) (now : ℤ),
      c.store.commits = h₁ ++ .authorized a now :: h₂ →
      (∃ g now', .granted g now' ∈ h₂ ∧ Unrevoked g.id h₂ ∧ Cites p a g now ∧
        ∃ i, c.reqOf i = some (.register a.grantedTo settlement g.scope g.constraints)) ∧
      ∃ pending, requiredScope pending.kind = some a.requiredScope ∧
        a.For pending a.requiredScope (capabilityOperationDigest p pending) ∧
        ∃ j, c.reqOf j = some (.commit pending) := by
  intro c h₁ h₂ a now heq
  obtain ⟨hc, hknown⟩ := reached p as
  have hmem : ∀ {e}, e ∈ Commit.authorized a now :: h₂ → e ∈ c.store.commits := by
    intro e he
    rw [heq]
    exact List.mem_append_right h₁ he
  have hlawful : Lawful (Admits p) (h₁ ++ .authorized a now :: h₂) := heq ▸ hc.store.lawful
  obtain ⟨g, now', hgiven, hlive, hcites⟩ := hlawful.of_append.2.2
  obtain ⟨-, -, i, hi⟩ := hknown.asked (hmem (List.mem_cons_of_mem _ hgiven))
  obtain ⟨pending, scope, hscope, hfor, j, hj⟩ := hknown.asked (hmem List.mem_cons_self)
  obtain rfl := hfor.requiredScope
  refine ⟨⟨g, now', hgiven, hlive, hcites, i, ?_⟩, pending, hscope, hfor, j, hj⟩
  rw [hi, hcites.grantedTo, hcites.settlement]

/-- The release of the sample was authorized under a grant that Alice had asked for. -/
theorem sample_authorization_cites :
    let c := sampleServer sampleAuthorizing
    ∃ a now, .authorized a now ∈ c.store.commits ∧ ∃ g now', .granted g now' ∈ c.store.commits ∧
      Cites samplePlatform a g now := by
  intro c
  obtain ⟨a, live, ht⟩ := sample_authorized sampleAuthorizing 1 rfl (by decide +kernel)
  obtain ⟨hc, hknown⟩ := reached samplePlatform sampleAuthorizing
  obtain ⟨⟨now, hmem⟩, -⟩ := hc.authorized hknown ht
  obtain ⟨h₁, h₂, heq⟩ := List.append_of_mem hmem
  obtain ⟨⟨g, now', hgiven, -, hcites, -⟩, -⟩ :=
    authorization_cites_live_grant samplePlatform sampleAuthorizing h₁ h₂ a now heq
  have hpast : Commit.granted g now' ∈ h₁ ++ .authorized a now :: h₂ :=
    List.mem_append_right h₁ (List.mem_cons_of_mem _ hgiven)
  exact ⟨a, now, hmem, g, now', heq ▸ hpast, hcites⟩

/-- Whatever was changed of an operation in between, it is let through with the facts and the
authorization it was first let through with, or the hash collides. -/
theorem operation_keeps_its_facts (p : Platform) (as : List (Action Env Request)) :
    let c := unused.exec (capabilities p) as
    ∀ (i j : ℕ) (pending pending' : PendingExecutionFacts) (a a' : Authorization)
      (live live' : Bool),
      c.threads[i]? = some ⟨.commit pending, .ret (.ok (.authorized (some a))), live⟩ →
      c.threads[j]? = some ⟨.commit pending', .ret (.ok (.authorized (some a'))), live'⟩ →
      pending.id = pending'.id →
      a = a' ∧ (pending = pending' ∨ pending.preimage ≠ pending'.preimage ∧
        p.sha256 pending.preimage = p.sha256 pending'.preimage) := by
  intro c i j pending pending' a a' live live' ht ht' hid
  obtain ⟨hc, hknown⟩ := reached p as
  obtain ⟨⟨now, hmem⟩, -, scope, hscope, hfor⟩ := hc.authorized hknown ht
  obtain ⟨⟨now', hmem'⟩, -, scope', hscope', hfor'⟩ := hc.authorized hknown ht'
  have hsame : a.pendingOperationId = a'.pendingOperationId := by
    rw [hfor.pendingOperationId, hfor'.pendingOperationId, hid]
  obtain rfl := authorized_unique hc.store.lawful hmem hmem' hsame
  exact ⟨rfl, facts_eq_or_collision (hfor.operationDigest.symm.trans hfor'.operationDigest)⟩

/-- The release of the sample and its retry are let through with one authorization. -/
theorem sample_operation_keeps_its_facts :
    let c := sampleServer (sampleAuthorizing ++ sampleRenewing ++ sampleRetrying)
    ∃ a, c.result? 1 = some (.ok (.authorized (some a))) ∧
      c.result? 4 = some (.ok (.authorized (some a))) := by
  intro c
  obtain ⟨a, live, ht⟩ := sample_authorized
    (sampleAuthorizing ++ sampleRenewing ++ sampleRetrying) 1 rfl (by decide +kernel)
  obtain ⟨a', live', ht'⟩ := sample_authorized
    (sampleAuthorizing ++ sampleRenewing ++ sampleRetrying) 4 rfl (by decide +kernel)
  obtain ⟨rfl, -⟩ := operation_keeps_its_facts samplePlatform _ 1 4 _ _ a a' live live' ht ht' rfl
  exact ⟨a, by rw [Config.result?, ht], by rw [Config.result?, ht']⟩

/-- Only the holder of a grant revokes it, and only a grant that was given is revoked. -/
theorem revoked_by_holder (p : Platform) (as : List (Action Env Request)) :
    let c := unused.exec (capabilities p) as
    ∀ row ∈ c.store.grants, row.revokedAt ≠ none →
      ∃ i, c.reqOf i = some (.revoke row.id row.grantedTo) := by
  intro c row hrow hrevoked
  obtain ⟨hc, hknown⟩ := reached p as
  have hs : Sound p c.store := hc.store
  obtain ⟨now, hmem⟩ : ∃ now, .revoked row.id now ∈ c.store.commits := by
    by_contra hnone
    exact hrevoked ((hs.revoked hrow).mpr fun now hmem => hnone ⟨now, hmem⟩)
  obtain ⟨g, now', hgiven, hid, i, hi⟩ := hknown.asked hmem
  obtain ⟨now'', hrowGiven⟩ := hs.given hrow
  have hsame : g = row.toGrant := granted_unique hs.lawful hgiven hrowGiven hid
  refine ⟨i, ?_⟩
  rw [hi, hsame]

/-- The revoked grant of the sample was revoked at Alice's request. -/
theorem sample_revoked :
    let c := sampleServer (sampleAuthorizing ++ sampleRenewing ++ sampleRetrying)
    ∃ row ∈ c.store.grants, row.revokedAt ≠ none ∧
      ∃ i, c.reqOf i = some (.revoke row.id row.grantedTo) := by
  intro c
  obtain ⟨row, hrow, hrevoked⟩ : ∃ row ∈ c.store.grants, row.revokedAt ≠ none := by
    decide +kernel
  exact ⟨row, hrow, hrevoked, revoked_by_holder samplePlatform _ row hrow hrevoked⟩

end Results

/-! ## Gates that open -/

section Alone

variable {env : Env} {s : Store}

theorem exec_answered (henv : env.fate = .answered) (q : Call) (s : Store) :
    q.exec p env s = q.run p env s := by
  unfold Call.exec
  rw [henv]
  split_ifs <;> rfl

/-- The first call of a program that is answered. -/
theorem runAlone_await {α : Type} (henv : env.fate = .answered) {q : Call} {a : Answer q}
    {s' : Store} (hrun : q.run p env s = (.ok a, s')) (f : Answer q → CapabilityOp α) :
    (await q >>= f).runAlone (fun q => q.exec p env) s =
      (f a).runAlone (fun q => q.exec p env) s' := by
  refine Prog.runAlone_perform_bind ?_ f
  rw [exec_answered henv, hrun]

variable (p) in
/-- Run a request alone, from its first call to its reply. -/
abbrev Request.alone (req : Request) (env : Env) (s : Store) :
    Except CapabilityError Reply × Store :=
  (req.prog p).runAlone (fun q => q.exec p env) s

/-- A live grant that covers the scope opens the gate in front of intents and fund movements. -/
theorem check_runs (henv : env.fate = .answered) {row : GrantRow} {scope : JsString}
    (hrow : row ∈ s.grants) (hlive : row.revokedAt = none) (hscope : scope ∈ row.scope)
    (hexpiry : isExpired p row.constraints env.now = false) :
    (Request.check row.grantedTo row.capabilityName scope).alone p env s =
      (.ok (.allowed true), s) := by
  have hfind : (((s.active row.grantedTo row.capabilityName).map GrantRow.toGrant).find? fun g =>
      g.scope.contains scope && !isExpired p g.constraints env.now).isSome = true := by
    refine List.find?_isSome.mpr ⟨row.toGrant, ?_, ?_⟩
    · exact List.mem_map_of_mem (mem_active.mpr ⟨hrow, rfl, rfl, hlive⟩)
    · rw [hexpiry, List.contains_iff_mem.mpr hscope]
      rfl
  rw [Request.alone, Request.prog, Prog.runAlone_bind, check,
    runAlone_await henv rfl, runAlone_await henv rfl, Prog.runAlone_pure, hfind]
  rfl

/-- What the gate in front of a broadcast answers. -/
theorem commit_runs (henv : env.fate = .answered) (hflag : p.enforceCapabilities = true)
    {pending : PendingExecutionFacts} {scope : JsString}
    (hscope : requiredScope pending.kind = some scope) {a : Authorization} {s' : Store}
    (hrun : s.authorize p env pending scope (capabilityOperationDigest p pending) = (.ok a, s')) :
    (Request.commit pending).alone p env s = (.ok (.authorized (some a)), s') := by
  have hcall : (authorizePendingExecution p pending).runAlone (fun q => q.exec p env) s =
      (.ok (some a), s') := by
    have hcall : Call.run p (.authorize pending scope (capabilityOperationDigest p pending)) env s =
        (.ok a, s') := hrun
    rw [authorizePendingExecution, hflag, hscope, if_neg (by decide)]
    exact runAlone_await henv hcall _
  rw [Request.alone, Request.prog, Prog.runAlone_bind, hcall]
  rfl

/-- A live grant of the initiator that covers the operation opens the gate in front of its
broadcast. -/
theorem authorize_new {pending : PendingExecutionFacts} {scope : JsString}
    (operationDigest : JsString)
    (hnew : ∀ a ∈ s.authorizations, a.pendingOperationId ≠ pending.id) {row : GrantRow}
    (hrow : row ∈ s.active pending.triggeredBy settlement) (hscope : scope ∈ row.scope)
    (hexpiry : isPastExpiry p row.constraints env.now = false) :
    ∃ a s', s.authorize p env pending scope operationDigest = (.ok a, s') := by
  have hnone : (s.authorizations.find? fun a => a.pendingOperationId = pending.id) = none :=
    List.find?_eq_none.mpr fun a ha heq => hnew a ha (of_decide_eq_true heq)
  obtain ⟨g, hg⟩ : ∃ g, ((s.active pending.triggeredBy settlement).find? fun g =>
      g.scope.contains scope && !isPastExpiry p g.constraints env.now) = some g := by
    refine Option.isSome_iff_exists.mp (List.find?_isSome.mpr ⟨row, hrow, ?_⟩)
    rw [hexpiry, List.contains_iff_mem.mpr hscope]
    rfl
  rw [Store.authorize, hnone]
  dsimp only
  rw [hg]
  exact ⟨_, _, rfl⟩

/-- The gate gives the authorization that is there. -/
theorem authorize_again (hs : Sound p s) {pending : PendingExecutionFacts}
    {scope operationDigest : JsString} {a : Authorization} (ha : a ∈ s.authorizations)
    (hfor : a.For pending scope operationDigest) :
    s.authorize p env pending scope operationDigest = (.ok a, s) := by
  have hfind : (s.authorizations.find? fun a => a.pendingOperationId = pending.id) = some a := by
    cases hx : s.authorizations.find? fun a => a.pendingOperationId = pending.id with
    | none =>
      exact absurd (decide_eq_true hfor.pendingOperationId) (List.find?_eq_none.mp hx a ha)
    | some a' =>
      have hid : a'.pendingOperationId = pending.id := by simpa using List.find?_some hx
      obtain ⟨now, hmem⟩ := hs.authorized.mp ha
      obtain ⟨now', hmem'⟩ := hs.authorized.mp (List.mem_of_find?_eq_some hx)
      rw [authorized_unique hs.lawful hmem' hmem (hid.trans hfor.pendingOperationId.symm)]
  rw [Store.authorize, hfind]
  dsimp only
  rw [if_neg]
  simp only [hfor.escrowId, hfor.grantedTo, hfor.capabilityName, hfor.requiredScope,
    hfor.operationDigest, ne_eq, not_true_eq_false, or_self, not_false_eq_true]

variable (p) in
/-- Every request makes two calls at most. -/
theorem prog_short (req : Request) : (req.prog p).Short 2 := by
  cases req with
  | register participantId capabilityName scope constraints =>
    refine Prog.Short.bind (n := 2) (m := 0) (fun _ => ?_) (Prog.short_require _ _ _)
    refine Prog.Short.bind (n := 0) (m := 2) (fun g => Prog.short_pure 0 _) ?_
    unfold grant
    cases assertCanonicalCapabilityGrant capabilityName scope with
    | error e => exact Prog.short_throw _ _
    | ok u => exact Prog.short_perform 1 _
  | revoke grantId requestedBy =>
    refine Prog.Short.bind (n := 2) (m := 0) (fun _ => ?_) (Prog.short_require _ _ _)
    refine Prog.Short.bind (n := 0) (m := 2) (fun _ => Prog.short_pure 0 _) ?_
    refine Prog.Short.bind (n := 1) (m := 1) (fun existing => ?_) (Prog.short_perform 0 _)
    cases existing with
    | none => exact Prog.short_throw _ _
    | some existing =>
      dsimp only
      split_ifs
      · exact Prog.short_throw _ _
      · exact Prog.short_perform 0 _
  | list participantId =>
    refine Prog.Short.bind (n := 2) (m := 0) (fun _ => ?_) (Prog.short_require _ _ _)
    exact Prog.Short.bind (n := 0) (m := 2) (fun l => Prog.short_pure 0 _)
      (Prog.short_perform 1 _)
  | check grantedTo capabilityName scope =>
    refine Prog.Short.bind (n := 0) (m := 2) (fun b => Prog.short_pure 0 _) ?_
    refine Prog.Short.bind (n := 1) (m := 1) (fun grants => ?_) (Prog.short_perform 0 _)
    exact Prog.Short.bind (n := 0) (m := 1) (fun now => Prog.short_pure 0 _)
      (Prog.short_perform 0 _)
  | commit pending =>
    refine Prog.Short.bind (n := 0) (m := 2) (fun b => Prog.short_pure 0 _) ?_
    unfold authorizePendingExecution
    split_ifs
    · exact Prog.short_pure _ _
    · cases requiredScope pending.kind with
      | none => exact Prog.short_throw _ _
      | some scope =>
        exact Prog.Short.bind (n := 0) (m := 2) (fun a => Prog.short_pure 0 _)
          (Prog.short_perform 1 _)

/-- A grant that was given opens both gates to each scope it was asked for, until it is revoked
or expires. -/
theorem grant_effective (p : Platform) (as : List (Action Env Request)) :
    let c := unused.exec (capabilities p) as
    ∀ (i : ℕ) (participantId capabilityName : JsString) (scope : List JsString)
      (constraints : Option ParsedJson) (g : Grant) (live : Bool),
      c.threads[i]? = some ⟨.register participantId capabilityName scope constraints,
        .ret (.ok (.granted g)), live⟩ →
      Unrevoked g.id c.store.commits → ∀ s ∈ scope, ∀ env : Env, env.fate = .answered →
      (isExpired p g.constraints env.now = false →
        let later := c.exec (capabilities p) (Config.serve c.threads.length
          (.check participantId capabilityName s) 2 env)
        later.threads = c.threads ++
          [⟨.check participantId capabilityName s, .ret (.ok (.allowed true)), true⟩]) ∧
      (isPastExpiry p g.constraints env.now = false → p.enforceCapabilities = true →
        ∀ pending : PendingExecutionFacts, pending.triggeredBy = participantId →
        capabilityName = settlement → requiredScope pending.kind = some s →
        (∀ a ∈ c.store.authorizations, a.pendingOperationId ≠ pending.id) →
        let later := c.exec (capabilities p)
          (Config.serve c.threads.length (.commit pending) 2 env)
        ∃ a, later.threads = c.threads ++
          [⟨.commit pending, .ret (.ok (.authorized (some a))), true⟩]) := by
  intro c i participantId capabilityName scope constraints g live ht hu s hs env henv
  obtain ⟨hc, hknown⟩ := reached p as
  obtain ⟨participantId', capabilityName', scope', constraints', heq, hseen, hscope, rfl, rfl⟩ :=
    hc.result ht
  cases heq
  obtain ⟨now, hgiven⟩ := hknown.backed hseen
  have hsound : Sound p c.store := hc.store
  obtain ⟨row, hrow, rfl⟩ := hsound.kept hgiven
  have hlive := (hsound.revoked hrow).mpr hu
  refine ⟨fun hexpiry => ?_, fun hexpiry hflag pending hto hname hkind hnew => ?_⟩
  · exact (Config.exec_serve env rfl
      (prog_short p (.check row.grantedTo row.capabilityName s))
      (check_runs henv hrow hlive (hscope s hs) hexpiry)).2
  · have hactive : row ∈ c.store.active pending.triggeredBy settlement :=
      mem_active.mpr ⟨hrow, hto.symm, hname, hlive⟩
    obtain ⟨a, s', hrun⟩ : ∃ a s', c.store.authorize p env pending s
        (capabilityOperationDigest p pending) = (.ok a, s') :=
      authorize_new _ hnew hactive (hscope s hs) hexpiry
    exact ⟨a, (Config.exec_serve env rfl (prog_short p (.commit pending))
      (commit_runs henv hflag hkind hrun)).2⟩

/-- The grant of the sample opens both gates before it expires. -/
theorem sample_grant_effective :
    let run := Config.serve 0 sampleRegister 2 (early (js "first"))
    let c := sampleServer run
    (c.exec (capabilities samplePlatform) (Config.serve 1
      (.check (js "alice") settlement (js "settlement.escrow.released")) 2 (early []))).threads =
      c.threads ++ [⟨.check (js "alice") settlement (js "settlement.escrow.released"),
        .ret (.ok (.allowed true)), true⟩] ∧
    ∃ a, (c.exec (capabilities samplePlatform) (Config.serve 1 (.commit samplePending) 2
      (early []))).threads = c.threads ++
        [⟨.commit samplePending, .ret (.ok (.authorized (some a))), true⟩] := by
  intro run c
  have hgranted : (granted? (c.result? 0)).any (fun g =>
      !isExpired samplePlatform g.constraints 1700000000000 &&
        !isPastExpiry samplePlatform g.constraints 1700000000000) = true := by decide +kernel
  obtain ⟨g, hg, hexpiry⟩ := (Option.any_eq_true _ _).mp hgranted
  simp only [Bool.and_eq_true, Bool.not_eq_true'] at hexpiry
  have hreq : (run.filterMap Action.started)[0]? = some sampleRegister := rfl
  obtain ⟨live, ht⟩ := Config.thread_of_run hreq (of_granted? hg)
  have hunrevoked : Unrevoked g.id c.store.commits := by
    have hnone : (c.store.commits.all fun
      | .revoked _ _ => false
      | _ => true) = true := by decide +kernel
    exact fun now hmem => Bool.false_ne_true (List.all_eq_true.mp hnone _ hmem)
  have hlength : c.threads.length = 1 := by decide +kernel
  have hgates := grant_effective samplePlatform run 0 _ _ _ _ g live ht hunrevoked
    (js "settlement.escrow.released") List.mem_cons_self (early []) rfl
  rw [← hlength]
  exact ⟨hgates.1 hexpiry.1, hgates.2 hexpiry.2 rfl samplePending rfl rfl (by decide +kernel)
    (by decide +kernel)⟩

/-- An operation that was let through is let through again under the same authorization, also
when its grant was revoked or has expired since, and nothing is written. -/
theorem retry_let_through (p : Platform) (as as' : List (Action Env Request)) :
    let c := unused.exec (capabilities p) as
    let c' := c.exec (capabilities p) as'
    ∀ (i : ℕ) (pending : PendingExecutionFacts) (a : Authorization) (live : Bool),
      c.threads[i]? = some ⟨.commit pending, .ret (.ok (.authorized (some a))), live⟩ →
      ∀ env : Env, env.fate = .answered →
      let later := c'.exec (capabilities p)
        (Config.serve c'.threads.length (.commit pending) 2 env)
      later.store = c'.store ∧ later.threads = c'.threads ++
        [⟨.commit pending, .ret (.ok (.authorized (some a))), true⟩] := by
  intro c c' i pending a live ht env henv
  obtain ⟨pending', scope, heq, hseen, hflag, hscope, hfor⟩ := (reached p as).1.result ht
  cases heq
  have hreached := reached p (as ++ as')
  rw [Config.exec_append] at hreached
  obtain ⟨hc', hknown'⟩ := hreached
  have hmem := (hc'.store.authorized).mpr (hknown'.backed (Config.mem_own_exec as' hseen))
  exact Config.exec_serve env rfl (prog_short p (.commit pending))
    (commit_runs henv hflag hscope (authorize_again hc'.store hmem hfor))

/-- The release of the sample is let through again after its grant has expired. -/
theorem sample_retry_let_through :
    let c := sampleServer (sampleAuthorizing ++ sampleRenewing)
    let later := c.exec (capabilities samplePlatform)
      (Config.serve c.threads.length (.commit samplePending) 2 (late []))
    later.store = c.store ∧ ∃ a, later.threads = c.threads ++
      [⟨.commit samplePending, .ret (.ok (.authorized (some a))), true⟩] := by
  obtain ⟨a, live, ht⟩ := sample_authorized sampleAuthorizing 1 rfl (by decide +kernel)
  have hretry := retry_let_through samplePlatform sampleAuthorizing sampleRenewing 1 _ a live ht
    (late []) rfl
  rw [← Config.exec_append] at hretry
  exact ⟨hretry.1, a, hretry.2⟩

end Alone

end Sails.Capability
