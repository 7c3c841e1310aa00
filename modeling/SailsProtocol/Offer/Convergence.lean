import SailsProtocol.Async.Rely
import SailsProtocol.Offer.Repository

/-!
# Two nodes that ingest the same envelopes agree

A call on a verified envelope that runs to its end with its queries answered accepts it,
whatever the other calls store meanwhile (`accepted_of_ranToEnd`). The table of a node
after any run of `ingest` calls holds only rows of the envelopes it was given, no fact
twice, and every fact whose call was accepted (`table_of_run`). So the tables of two nodes that were given the same envelopes hold
the same facts, whatever the order, the repetitions and the interleaving, and
`getLatest` reads the same contents off both (`correct_unique`).

`Correct` says which verdict the envelopes determine : the distinct contents at the
highest revision of an offer, in the order of their digests.
-/

namespace Sails.Offer

open Text Async

/-- The envelope without its signature. -/
def SignedOfferEnvelope.content (e : SignedOfferEnvelope) : SignedOfferEnvelope :=
  { e with signature := [] }

/-- The envelope is one of the owner's offer. -/
def SignedOfferEnvelope.isFor (e : SignedOfferEnvelope) (owner id : JsString) : Prop :=
  e.ownerPublicKey = owner ∧ e.logicalOfferId = id

/-- The revision as a whole number. -/
def SignedOfferEnvelope.revisionOf (e : SignedOfferEnvelope) : ℤ := e.revision.toInt?.getD 0

/-- What the table keeps unique of an envelope. -/
def SignedOfferEnvelope.fact (sha256 : List UInt8 → List UInt8) (e : SignedOfferEnvelope) : Fact :=
  ⟨e.ownerPublicKey, e.logicalOfferId, e.revisionOf, contentDigest sha256 e⟩

/-- `c` is the content of an envelope at the highest revision of the offer. -/
def Latest (E : Multiset SignedOfferEnvelope) (owner id : JsString) (c : SignedOfferEnvelope) :
    Prop :=
  ∃ e ∈ E, e.isFor owner id ∧ e.content = c ∧
    ∀ e' ∈ E, e'.isFor owner id → e'.revisionOf ≤ e.revisionOf

/-- A state of an offer up to row ids and signatures. -/
inductive Verdict where
  | notFound
  | resolved (content : SignedOfferEnvelope)
  | equivocated (revision : ℤ) (contents : List SignedOfferEnvelope)
  deriving DecidableEq, Repr

/-- The envelope that a row is read back as. -/
def StoredRow.envelope (r : StoredRow) : SignedOfferEnvelope := reconstructSignedEnvelope r.row

/-- The latest state without ids, signatures and order of arrival. -/
def LatestOfferState.verdict : LatestOfferState → Verdict
  | .NOT_FOUND => .notFound
  | .RESOLVED r => .resolved r.envelope.content
  | .EQUIVOCATED revision rows => .equivocated revision (rows.map fun r => r.envelope.content)

/-- Thread `i` is a call on `e` that ran to its end, and all its queries were answered. -/
def ranToEnd (as : List (Action QueryEnv SignedOfferEnvelope))
    (c : Config Answer DbError IngestResult (List StoredRow) SignedOfferEnvelope OfferEnvelopeRow)
    (e : SignedOfferEnvelope) (i : ℕ) : Bool :=
  (match c.threads[i]? with
    | some ⟨e', .ret _, _⟩ => e' == e
    | _ => false) &&
  as.all fun a => match a with
    | .run j env => j != i || env.fate == .answered
    | _ => true

/-- Every request was for an envelope of `E`, and every envelope of `E` was ingested :
some call on it ran to its end with its queries answered. Its result is not assumed. -/
def Ingested (E : Multiset SignedOfferEnvelope) (as : List (Action QueryEnv SignedOfferEnvelope))
    (c : Config Answer DbError IngestResult (List StoredRow) SignedOfferEnvelope OfferEnvelopeRow) :
    Prop :=
  (∀ t ∈ c.threads, t.req ∈ E) ∧ ∀ e ∈ E, ∃ i < c.threads.length, ranToEnd as c e i = true

instance (E : Multiset SignedOfferEnvelope) (as : List (Action QueryEnv SignedOfferEnvelope))
    (c : Config Answer DbError IngestResult (List StoredRow) SignedOfferEnvelope OfferEnvelopeRow) :
    Decidable (Ingested E as c) :=
  inferInstanceAs (Decidable ((∀ t ∈ c.threads, t.req ∈ E) ∧
    ∀ e ∈ E, ∃ i < c.threads.length, ranToEnd as c e i = true))

/-- When a call on the envelope ran to its end with its queries answered. -/
theorem ranToEnd_iff {as : List (Action QueryEnv SignedOfferEnvelope)}
    {c : Config Answer DbError IngestResult (List StoredRow) SignedOfferEnvelope OfferEnvelopeRow}
    {e : SignedOfferEnvelope} {i : ℕ} : ranToEnd as c e i = true ↔
      (∃ r live, c.threads[i]? = some ⟨e, .ret r, live⟩) ∧
        ∀ env, .run i env ∈ as → env.fate = .answered := by
  unfold ranToEnd
  rw [Bool.and_eq_true, List.all_eq_true]
  refine and_congr ?_ ⟨fun h env henv => ?_, fun h a ha => ?_⟩
  · rcases c.threads[i]? with _ | ⟨e', ⟨r⟩ | ⟨q, k⟩, live⟩
    · simp
    · simp
    · simp
  · simpa using h _ henv
  · cases a with
    | run j env =>
      by_cases hij : j = i
      · subst hij
        simp [h env ha]
      · simp [hij]
    | start req => rfl
    | crash j => rfl

/-! ## The table of a run -/

section Node

variable (sha256 : List UInt8 → List UInt8)
variable (verify : List UInt8 → List UInt8 → List UInt8 → Bool)

/-- The configuration of a node after a run from an empty table. -/
def nodeAfter (as : List (Action QueryEnv SignedOfferEnvelope)) :
    Config Answer DbError IngestResult (List StoredRow) SignedOfferEnvelope OfferEnvelopeRow :=
  (Config.init []).exec (node sha256 verify) as

/-- The table holds the facts of `E`, each once, as rows of envelopes of `E`. -/
structure TableOf (E : Multiset SignedOfferEnvelope) (table : List StoredRow) : Prop where
  sound : ∀ r ∈ table, r.envelope ∈ E ∧ r.row.contentDigest = contentDigest sha256 r.envelope
  complete : ∀ e ∈ E, ∃ r ∈ table, r.row.fact = e.fact sha256
  nodup : (table.map fun r => r.row.fact).Nodup

/-- A call inserts only the row of its own verified envelope. -/
def InsertsOwn (e : SignedOfferEnvelope) (_ : List OfferEnvelopeRow) : Call → Prop
  | .create data => verifyOfferEnvelope sha256 verify e = .valid ∧
      data = toRowData e (contentDigest sha256 e)
  | _ => True

/-- An accepted call has found or put the row of its envelope in the table. -/
def AcceptedStored (e : SignedOfferEnvelope) (log : List OfferEnvelopeRow)
    (r : Except DbError IngestResult) : Prop :=
  ∀ id eq, r = .ok (.accepted id eq) → verifyOfferEnvelope sha256 verify e = .valid ∧
    ∃ row ∈ log, toRowData e (contentDigest sha256 e) = some row

/-- A row that was inserted, or was there, is in the table. -/
theorem observe_create_ok {data : Option OfferEnvelopeRow} {table : List StoredRow}
    {r : Except DbError ℕ} (hr : ∃ env, (Call.exec (.create data) env table).1 = r)
    (hok : r = .error .P2002 ∨ ∃ id, r = .ok id) :
    ∃ row, data = some row ∧ Call.observe (.create data) table r = [row] := by
  obtain ⟨env, rfl⟩ := hr
  cases data with
  | none =>
    cases hf : env.fate <;> simp [Call.exec, Fate.settle, hf, Call.run] at hok
  | some row =>
    refine ⟨row, rfl, ?_⟩
    rcases hok with h | ⟨id, h⟩
    · rw [h]
      rfl
    · rw [h]
      rfl

/-- `ingest` inserts the row of its own envelope. -/
theorem ingest_guarded (e : SignedOfferEnvelope) :
    (ingest sha256 verify e).Guarded (Config.Answerable (node sha256 verify) fun _ => True)
      (node sha256 verify).observe (InsertsOwn sha256 verify e) (AcceptedStored sha256 verify e)
      [] := by
  unfold ingest
  split
  · simp [AcceptedStored]
  · next hv =>
    simp only [Prog.guarded_bind, Prog.guarded_perform, Prog.guarded_tryCatch]
    refine ⟨trivial, fun table r _ => ?_⟩
    cases r with
    | error err => simp [AcceptedStored]
    | ok siblings =>
      refine ⟨⟨hv, rfl⟩, fun table' r hr => ?_⟩
      cases r with
      | ok id =>
        obtain ⟨row, hrow, hobs⟩ := observe_create_ok hr.2 (Or.inr ⟨id, rfl⟩)
        simp only [Prog.guarded_pure, AcceptedStored]
        intro _ _ _
        refine ⟨hv, row, List.mem_append_left _ ?_, hrow⟩
        rw [show (node sha256 verify).observe = Call.observe from rfl, hobs]
        exact List.mem_singleton_self row
      | error err =>
        cases err with
        | fault => simp [AcceptedStored]
        | P2002 =>
          obtain ⟨row, hrow, hobs⟩ := observe_create_ok hr.2 (Or.inl rfl)
          simp only [Prog.guarded_bind]
          refine ⟨trivial, fun table'' r _ => ?_⟩
          cases r with
          | error err => simp [AcceptedStored]
          | ok existing =>
            cases existing with
            | none => simp [AcceptedStored]
            | some found =>
              simp only [AcceptedStored]
              intro _ _ _
              refine ⟨hv, row, List.mem_append_right _ (List.mem_append_left _ ?_), hrow⟩
              rw [show (node sha256 verify).observe = Call.observe from rfl, hobs]
              exact List.mem_singleton_self row

/-- What every run keeps : the rows are those of requested envelopes, no fact is there
twice, and a row that was found or put there still has its fact there. -/
structure Kept (c : Config Answer DbError IngestResult (List StoredRow) SignedOfferEnvelope
    OfferEnvelopeRow) : Prop where
  sound : ∀ r ∈ c.store, ∃ e ∈ c.threads.map Thread.req,
    verifyOfferEnvelope sha256 verify e = .valid ∧
      toRowData e (contentDigest sha256 e) = some r.row
  nodup : (c.store.map fun r => r.row.fact).Nodup
  stored : ∀ entry ∈ c.trace, ∃ r ∈ c.store, r.row.fact = entry.2.fact

/-- What a query does to the table : nothing, or it appends a row with a new fact. -/
theorem exec_table (q : Call) (env : QueryEnv) (table : List StoredRow) :
    (q.exec env table).2 = table ∨ ∃ row id, q = .create (some row) ∧
      (∀ r ∈ table, r.row.fact ≠ row.fact) ∧ (q.exec env table).2 = table ++ [⟨id, row⟩] := by
  have hrun : (q.run env.newId table).2 = table ∨ ∃ row id, q = .create (some row) ∧
      (∀ r ∈ table, r.row.fact ≠ row.fact) ∧
      (q.run env.newId table).2 = table ++ [⟨id, row⟩] := by
    cases q with
    | findMany => exact Or.inl rfl
    | findFirst => exact Or.inl rfl
    | create data =>
      cases data with
      | none => exact Or.inl rfl
      | some row =>
        by_cases hany : (table.any fun r => r.row.fact == row.fact) = true
        · exact Or.inl (by simp [Call.run, hany])
        · refine Or.inr ⟨row, env.newId, rfl, ?_, by simp [Call.run, hany]⟩
          simpa using hany
  unfold Call.exec
  rcases env.fate.settle_store DbError.fault (q.run env.newId table) table with h | h
  · exact Or.inl h
  · rw [h]
    exact hrun

/-- A row that a query shows has its fact in the table. -/
theorem mem_observe {q : Call} {env : QueryEnv} {table : List StoredRow} {row : OfferEnvelopeRow}
    (h : row ∈ q.observe table (q.exec env table).1) :
    ∃ r ∈ (q.exec env table).2, r.row.fact = row.fact := by
  cases q with
  | findMany => cases h
  | findFirst => cases h
  | create data =>
    cases data with
    | none => cases h
    | some row' =>
      by_cases hany : (table.any fun r => r.row.fact == row'.fact) = true
      · cases hf : env.fate <;> simp [Call.exec, Fate.settle, hf, Call.run, hany, Call.observe] at h ⊢
        subst h
        simpa using hany
      · cases hf : env.fate <;> simp [Call.exec, Fate.settle, hf, Call.run, hany, Call.observe] at h ⊢
        subst h
        exact Or.inr rfl

/-- Every run keeps the table. -/
theorem kept_run (as : List (Action QueryEnv SignedOfferEnvelope)) :
    Config.Conforms (node sha256 verify) (fun _ => True) (InsertsOwn sha256 verify)
      (AcceptedStored sha256 verify) (nodeAfter sha256 verify as) ∧
    Kept sha256 verify (nodeAfter sha256 verify as) := by
  refine Config.run_invariant (A := fun _ _ => True) (ingest_guarded sha256 verify)
    (fun _ _ _ _ => trivial) ?_ ?_ ?_ as (Config.conforms_init trivial) ?_ ?_
  · intro c req _ hI _
    refine ⟨fun r hr => ?_, hI.nodup, hI.stored⟩
    obtain ⟨e, he, hrow⟩ := hI.sound r hr
    refine ⟨e, ?_, hrow⟩
    rw [Config.spawn, List.map_append]
    exact List.mem_append_left _ he
  · intro c i env req q k _ hI _ ht hg
    have hreq : (c.answer (node sha256 verify) i env req q k).threads.map Thread.req =
        c.threads.map Thread.req := Config.map_req_set ht rfl
    have hmem : ∀ r ∈ c.store, r ∈ (q.exec env c.store).2 := by
      intro r hr
      rcases exec_table q env c.store with h | ⟨row, id, -, -, h⟩
      · rwa [h]
      · rw [h]
        exact List.mem_append_left _ hr
    refine ⟨fun r hr => ?_, ?_, fun entry hentry => ?_⟩
    · rw [hreq]
      change r ∈ (q.exec env c.store).2 at hr
      rcases exec_table q env c.store with h | ⟨row, id, rfl, -, h⟩
      · exact hI.sound r (h ▸ hr)
      · rw [h] at hr
        rcases List.mem_append.mp hr with hr | hr
        · exact hI.sound r hr
        · rw [List.mem_singleton.mp hr]
          exact ⟨req, List.mem_map.mpr ⟨_, List.mem_of_getElem? ht, rfl⟩, hg.1, hg.2.symm⟩
    · change ((q.exec env c.store).2.map fun r => r.row.fact).Nodup
      rcases exec_table q env c.store with h | ⟨row, id, -, hnew, h⟩
      · rw [h]
        exact hI.nodup
      · rw [h, List.map_append, List.nodup_append]
        refine ⟨hI.nodup, List.nodup_singleton _, ?_⟩
        intro f hf f' hf'
        obtain ⟨r, hr, rfl⟩ := List.mem_map.mp hf
        rw [List.map_singleton, List.mem_singleton] at hf'
        rw [hf']
        exact hnew r hr
    · rcases List.mem_append.mp hentry with hnew | hold
      · obtain ⟨row, hrow, rfl⟩ := List.mem_map.mp hnew
        exact mem_observe hrow
      · obtain ⟨r, hr, hf⟩ := hI.stored entry hold
        exact ⟨r, hmem r hr, hf⟩
  · intro c i t _ hI _ ht
    have hreq : (c.kill i t).threads.map Thread.req = c.threads.map Thread.req :=
      Config.map_req_set ht rfl
    exact ⟨fun r hr => hreq ▸ hI.sound r hr, hI.nodup, hI.stored⟩
  · exact ⟨fun r hr => (by cases hr), List.nodup_nil, fun entry he => (by cases he)⟩
  · exact Config.along_true as

/-! ## Rows and their envelopes -/

theorem accepted_of_verify {e : SignedOfferEnvelope}
    (h : verifyOfferEnvelope sha256 verify e = .valid) : Accepted e := by
  unfold verifyOfferEnvelope at h
  unfold Accepted
  split at h
  · cases h
  · next hv => exact hv

theorem contentDigest_of_toRowData {e : SignedOfferEnvelope} {d : JsString}
    {row : OfferEnvelopeRow} (h : toRowData e d = some row) : row.contentDigest = d := by
  simp only [toRowData, Option.bind_eq_bind, Option.bind_eq_some_iff] at h
  obtain ⟨_, _, _, _, _, _, _, _, _, _, _, _, _, _, h⟩ := h
  rw [← Option.some.inj h]

/-- The row of a verified envelope is rebuilt to that envelope, under its digest. -/
theorem envelope_of_toRowData {e : SignedOfferEnvelope} {r : StoredRow}
    (hv : verifyOfferEnvelope sha256 verify e = .valid)
    (h : toRowData e (contentDigest sha256 e) = some r.row) :
    r.envelope = e ∧ r.row.contentDigest = contentDigest sha256 e := by
  obtain ⟨row, hrow, -, hrec⟩ :=
    reconstruct_toRowData (accepted_of_verify sha256 verify hv) (contentDigest sha256 e)
  obtain rfl := Option.some.inj (hrow.symm.trans h)
  exact ⟨hrec, contentDigest_of_toRowData h⟩

theorem fact_of_envelope {r : StoredRow}
    (h : r.row.contentDigest = contentDigest sha256 r.envelope) :
    r.row.fact = r.envelope.fact sha256 := by
  unfold OfferEnvelopeRow.fact SignedOfferEnvelope.fact
  rw [h]
  rfl

/-! ## Acceptance -/

theorem exec_answered {env : QueryEnv} (h : env.fate = .answered) (q : Call)
    (table : List StoredRow) : q.exec env table = q.run env.newId table := by
  rw [Call.exec, h, Fate.settle]

/-- An insert that meets the unique constraint. -/
theorem run_create_taken {row : OfferEnvelopeRow} {table : List StoredRow}
    (h : (table.any fun r => r.row.fact == row.fact) = true) (newId : ℕ) :
    (Call.create (some row)).run newId table = (.error .P2002, table) :=
  if_pos h

/-- An insert of a new fact. -/
theorem run_create_new {row : OfferEnvelopeRow} {table : List StoredRow}
    (h : ¬ (table.any fun r => r.row.fact == row.fact) = true) (newId : ℕ) :
    (Call.create (some row)).run newId table = (.ok newId, table ++ [⟨newId, row⟩]) :=
  if_neg h

/-- What other calls do to the table between two queries : every row stays. -/
def Grows (table table' : List StoredRow) : Prop := table ⊆ table'

instance : Std.Refl Grows := ⟨List.Subset.refl⟩

instance : IsTrans (List StoredRow) Grows := ⟨fun _ _ _ => List.Subset.trans⟩

/-- No query takes a row away. -/
theorem grows_exec (q : Call) (env : QueryEnv) (table : List StoredRow) :
    Grows table (q.exec env table).2 := by
  rcases exec_table q env table with h | ⟨row, id, -, -, h⟩
  · rw [h]
    exact List.Subset.refl table
  · rw [h]
    exact List.subset_append_left table _

/-- The recovery read finds a row with the fact of a verified envelope. -/
theorem exists_findFirst {e : SignedOfferEnvelope} {row : OfferEnvelopeRow}
    (hrow : toRowData e (contentDigest sha256 e) = some row)
    (hrec : reconstructSignedEnvelope row = e) {table : List StoredRow} {r : StoredRow}
    (hr : r ∈ table) (hfact : r.row.fact = row.fact) (newId : ℕ) :
    ∃ found, ((Call.findFirst e.ownerPublicKey e.logicalOfferId e.revision
      (contentDigest sha256 e)).run newId table).1 = .ok (some found) := by
  have howner : r.row.ownerPublicKey = e.ownerPublicKey := by
    rw [← hrec]
    exact congrArg Fact.ownerPublicKey hfact
  have hid : r.row.logicalOfferId = e.logicalOfferId := by
    rw [← hrec]
    exact congrArg Fact.logicalOfferId hfact
  have hrev : JsNumber.int r.row.revision = e.revision := by
    rw [← hrec]
    exact congrArg (fun f => JsNumber.int f.revision) hfact
  have hdigest : r.row.contentDigest = contentDigest sha256 e :=
    (congrArg Fact.contentDigest hfact).trans (contentDigest_of_toRowData hrow)
  have hmatch : (matchesRow e.ownerPublicKey e.logicalOfferId e.revision r &&
      r.row.contentDigest == contentDigest sha256 e) = true := by
    simp [matchesRow, StoredRow.isFor, howner, hid, hrev, hdigest]
  have hsome := List.find?_isSome (p := fun r =>
    matchesRow e.ownerPublicKey e.logicalOfferId e.revision r &&
      r.row.contentDigest == contentDigest sha256 e).mpr ⟨r, hr, hmatch⟩
  obtain ⟨found, hfound⟩ := Option.isSome_iff_exists.mp hsome
  exact ⟨found, congrArg Except.ok hfound⟩

/-- A call on a verified envelope whose queries are answered accepts it, whatever the other
calls store in between : by its insert, or by the row it finds when the insert meets the
unique constraint. -/
theorem ingest_ends (e : SignedOfferEnvelope) (table : List StoredRow) :
    (ingest sha256 verify e).Ends Call.exec Grows (fun env => env.fate = .answered)
      (fun _ r => verifyOfferEnvelope sha256 verify e = .valid →
        ∃ id eq, r = .ok (.accepted id eq)) table := by
  unfold ingest
  split
  · next reason hv =>
    rw [Prog.ends_pure]
    intro h
    cases hv.symm.trans h
  · next hv =>
    obtain ⟨row, hrow, -, hrec⟩ :=
      reconstruct_toRowData (accepted_of_verify sha256 verify hv) (contentDigest sha256 e)
    simp only [Prog.ends_bind, Prog.ends_perform, Prog.ends_tryCatch]
    rw [hrow]
    intro table₁ _ env₁ henv₁
    rw [exec_answered henv₁]
    intro table₂ _ env₂ henv₂
    rw [exec_answered henv₂]
    by_cases hany : (table₂.any fun r => r.row.fact == row.fact) = true
    · obtain ⟨r, hr, hfact⟩ := List.any_eq_true.mp hany
      rw [run_create_taken hany]
      intro table₃ hsub env₃ henv₃
      obtain ⟨found, hfound⟩ := exists_findFirst sha256 hrow hrec (hsub hr) (by simpa using hfact)
        env₃.newId
      rw [exec_answered henv₃, hfound]
      exact fun _ => ⟨found.id, false, rfl⟩
    · rw [run_create_new hany]
      exact fun _ => ⟨env₂.newId, _, rfl⟩

/-- A verified envelope is accepted by every call on it that ran to its end with its
queries answered. -/
theorem accepted_of_ranToEnd {e : SignedOfferEnvelope}
    (hv : verifyOfferEnvelope sha256 verify e = .valid)
    {as : List (Action QueryEnv SignedOfferEnvelope)} {i : ℕ} {r : Except DbError IngestResult}
    {live : Bool} (hi : (nodeAfter sha256 verify as).threads[i]? = some ⟨e, .ret r, live⟩)
    (hanswered : ∀ env, .run i env ∈ as → env.fate = .answered) :
    ∃ id eq, r = .ok (.accepted id eq) :=
  Config.result_of_exec (S := node sha256 verify) (R := Grows)
    (Q := fun e r => verifyOfferEnvelope sha256 verify e = .valid →
      ∃ id eq, r = .ok (.accepted id eq))
    grows_exec (ingest_ends sha256 verify) hanswered hi hv

/-- The table of a node that ingested `E`. -/
theorem table_of_run {E : Multiset SignedOfferEnvelope}
    (hver : ∀ e ∈ E, verifyOfferEnvelope sha256 verify e = .valid)
    {as : List (Action QueryEnv SignedOfferEnvelope)}
    (h : Ingested E as (nodeAfter sha256 verify as)) :
    TableOf sha256 E (nodeAfter sha256 verify as).store := by
  obtain ⟨hconf, hkept⟩ := kept_run sha256 verify as
  refine ⟨fun r hr => ?_, fun e he => ?_, hkept.nodup⟩
  · obtain ⟨e, he, hv, hrow⟩ := hkept.sound r hr
    obtain ⟨t, ht, rfl⟩ := List.mem_map.mp he
    obtain ⟨henv, hdigest⟩ := envelope_of_toRowData sha256 verify hv hrow
    rw [henv]
    exact ⟨h.1 t ht, hdigest⟩
  · obtain ⟨i, -, hran⟩ := h.2 e he
    obtain ⟨⟨res, live, hi⟩, hanswered⟩ := ranToEnd_iff.mp hran
    obtain ⟨id, eq, rfl⟩ := accepted_of_ranToEnd sha256 verify (hver e he) hi hanswered
    obtain ⟨hv, row, hmem, hrow⟩ := hconf.result hi id eq rfl
    obtain ⟨r, hr, hf⟩ := hkept.stored _ (Config.mem_own.mp hmem)
    have henv := envelope_of_toRowData sha256 verify (r := ⟨0, row⟩) hv hrow
    refine ⟨r, hr, hf.trans ?_⟩
    rw [← henv.1]
    exact fact_of_envelope sha256 (r := ⟨0, row⟩) (by rw [henv.1]; exact henv.2)

end Node

/-! ## What the envelopes determine -/

theorem hexValue_hexDigit : ∀ d < 16, hexValue (hexDigit d) = d := by
  decide

/-- A hex text is read back. -/
theorem hexBytes_toHex (bytes : List UInt8) : hexBytes (toHex bytes) = bytes := by
  induction bytes with
  | nil => rfl
  | cons b bytes ih =>
    have hb := b.toNat_lt
    have h16 : 16 * (b.toNat / 16) + b.toNat % 16 = b.toNat := by omega
    change UInt8.ofNat (16 * hexValue (hexDigit (b.toNat / 16)) +
      hexValue (hexDigit (b.toNat % 16))) :: hexBytes (toHex bytes) = b :: bytes
    rw [hexValue_hexDigit _ (by omega), hexValue_hexDigit _ (by omega), h16, ih,
      UInt8.ofNat_toNat]

section Verdicts

variable {sha256 : List UInt8 → List UInt8} {E : Multiset SignedOfferEnvelope}
variable {owner id : JsString}

/-- The verdict the envelopes of `E` determine for an offer. -/
structure Correct (sha256 : List UInt8 → List UInt8) (E : Multiset SignedOfferEnvelope)
    (owner id : JsString) (v : Verdict) : Prop where
  notFound_iff : v = .notFound ↔ ∀ e ∈ E, ¬ e.isFor owner id
  resolved_iff : ∀ c, v = .resolved c ↔ ∀ c', Latest E owner id c' ↔ c' = c
  equivocated : ∀ rev cs, v = .equivocated rev cs → 2 ≤ cs.length ∧ cs.Nodup ∧
    (∀ c, c ∈ cs ↔ Latest E owner id c) ∧ (∀ c ∈ cs, c.revisionOf = rev) ∧
    cs.Pairwise fun a b => (contentDigest sha256 a).map UInt16.toNat ≤
      (contentDigest sha256 b).map UInt16.toNat

/-- The envelopes of `E` are accepted and the hash does not confuse them. -/
structure CollisionFree (sha256 : List UInt8 → List UInt8) (E : Multiset SignedOfferEnvelope) :
    Prop where
  accepted : ∀ e ∈ E, Accepted e
  hash : ∀ e ∈ E, ∀ e' ∈ E, hashOfferEnvelope sha256 e = hashOfferEnvelope sha256 e' →
    canonicalizeOfferEnvelope e = canonicalizeOfferEnvelope e'

/-- Envelopes of one offer with the same digest have the same content. -/
theorem CollisionFree.content_eq (hE : CollisionFree sha256 E) {e e' : SignedOfferEnvelope}
    (he : e ∈ E) (he' : e' ∈ E) (hid : e.logicalOfferId = e'.logicalOfferId)
    (hd : contentDigest sha256 e = contentDigest sha256 e') : e.content = e'.content := by
  have hhash : hashOfferEnvelope sha256 e = hashOfferEnvelope sha256 e' := by
    have := congrArg hexBytes hd
    rwa [contentDigest, contentDigest, hexBytes_toHex, hexBytes_toHex] at this
  have hcanon := hE.hash e he e' he' hhash
  have hsame := ((canonicalize_eq_iff (accepted_iff.mp (hE.accepted e he))
    (accepted_iff.mp (hE.accepted e' he'))).mp hcanon).2
  have := sameSigned_of_id hsame hid
  unfold SignedOfferEnvelope.SameSigned at this
  unfold SignedOfferEnvelope.content
  rw [← this]

theorem digest_map_toNat_injective {a b : JsString} (h : a.map UInt16.toNat = b.map UInt16.toNat) :
    a = b :=
  List.map_injective_iff.mpr (fun _ _ => UInt16.toNat_inj.mp) h

/-- A verdict is determined by the envelopes. -/
theorem correct_unique (hE : CollisionFree sha256 E) {v v' : Verdict}
    (hv : Correct sha256 E owner id v) (hv' : Correct sha256 E owner id v') : v = v' := by
  cases v with
  | notFound => exact (hv'.notFound_iff.mpr (hv.notFound_iff.mp rfl)).symm
  | resolved c => exact ((hv'.resolved_iff c).mpr ((hv.resolved_iff c).mp rfl)).symm
  | equivocated rev cs =>
    cases v' with
    | notFound => exact hv.notFound_iff.mpr (hv'.notFound_iff.mp rfl)
    | resolved c => exact (hv.resolved_iff c).mpr ((hv'.resolved_iff c).mp rfl)
    | equivocated rev' cs' =>
      obtain ⟨hlen, hnd, hmem, hrev, hsorted⟩ := hv.equivocated rev cs rfl
      obtain ⟨-, hnd', hmem', hrev', hsorted'⟩ := hv'.equivocated rev' cs' rfl
      have hperm : cs.Perm cs' :=
        (List.perm_ext_iff_of_nodup hnd hnd').mpr fun c => (hmem c).trans (hmem' c).symm
      have hcs : cs = cs' := by
        refine hperm.eq_of_pairwise ?_ hsorted hsorted'
        intro a b ha hb hab hba
        obtain ⟨e, he, hfor, rfl, -⟩ := (hmem a).mp ha
        obtain ⟨e', he', hfor', rfl, -⟩ := (hmem' b).mp hb
        exact hE.content_eq he he' (hfor.2.trans hfor'.2.symm)
          (digest_map_toNat_injective (le_antisymm hab hba))
      subst hcs
      obtain ⟨c, hc⟩ := List.exists_mem_of_length_pos (lt_of_lt_of_le (by omega) hlen)
      rw [← hrev c hc, ← hrev' c hc]

/-! ## What `getLatest` reads -/

instance : Std.Total digestLe := ⟨fun _ _ => le_total _ _⟩

instance : IsTrans StoredRow digestLe := ⟨fun _ _ _ => le_trans⟩

theorem isFor_iff {r : StoredRow} : r.isFor owner id = true ↔ r.envelope.isFor owner id := by
  simp [StoredRow.isFor, SignedOfferEnvelope.isFor, StoredRow.envelope, reconstructSignedEnvelope]

/-- Rows with different digests are kept. -/
theorem distinctByContentDigest_eq {rows : List StoredRow}
    (h : (rows.map fun r => r.row.contentDigest).Nodup) : distinctByContentDigest rows = rows := by
  have hfold : ∀ acc : List StoredRow, ((acc ++ rows).map fun r => r.row.contentDigest).Nodup →
      rows.foldl mapSet acc = acc ++ rows := by
    clear h
    induction rows with
    | nil => simp
    | cons r rows ih =>
      intro acc hnd
      have hnew : acc.any (fun r' => r'.row.contentDigest == r.row.contentDigest) = false := by
        rw [List.map_append, List.nodup_append] at hnd
        rw [List.any_eq_false]
        intro r' hr'
        simpa using hnd.2.2 _ (List.mem_map_of_mem hr') _ (by simp)
      rw [List.foldl_cons, mapSet, if_neg (by simp [hnew]), ih _ (by simpa using hnd)]
      simp
  exact hfold [] h

theorem highestRevision_eq_none {table : List StoredRow}
    (h : highestRevision table owner id = none) : ∀ r ∈ table, ¬ r.envelope.isFor owner id := by
  intro r hr hfor
  rw [highestRevision, List.max?_eq_none_iff, List.map_eq_nil_iff, List.filter_eq_nil_iff] at h
  exact h r hr (isFor_iff.mpr hfor)

/-- The highest revision is that of a row, and no row has a higher one. -/
theorem highestRevision_eq_some {table : List StoredRow} {rev : ℤ}
    (h : highestRevision table owner id = some rev) :
    (∃ r ∈ table, r.envelope.isFor owner id ∧ r.row.revision = rev) ∧
      ∀ r ∈ table, r.envelope.isFor owner id → r.row.revision ≤ rev := by
  rw [highestRevision, List.max?_eq_some_iff] at h
  constructor
  · obtain ⟨r, hr, hrev⟩ := List.mem_map.mp h.1
    obtain ⟨hmem, hfor⟩ := List.mem_filter.mp hr
    exact ⟨r, hmem, isFor_iff.mp hfor, hrev⟩
  · intro r hr hfor
    exact h.2 _ (List.mem_map_of_mem (List.mem_filter.mpr ⟨hr, isFor_iff.mpr hfor⟩))

section Table

variable {table : List StoredRow}

theorem TableOf.fact_eq (hT : TableOf sha256 E table) {r : StoredRow} (hr : r ∈ table) :
    r.row.fact = r.envelope.content.fact sha256 :=
  fact_of_envelope sha256 (hT.sound r hr).2

theorem mem_rowsAt {r : StoredRow} {rev : ℤ} : r ∈ rowsAt table owner id rev ↔
    r ∈ table ∧ r.envelope.isFor owner id ∧ r.row.revision = rev := by
  simp [rowsAt, isFor_iff]

/-- The contents of the rows at the highest revision are the latest contents. -/
theorem TableOf.mem_contents_iff (hT : TableOf sha256 E table) (hE : CollisionFree sha256 E)
    {rev : ℤ} (hrev : highestRevision table owner id = some rev) (c : SignedOfferEnvelope) :
    c ∈ (rowsAt table owner id rev).map (fun r => r.envelope.content) ↔ Latest E owner id c := by
  obtain ⟨⟨r₀, hr₀, hfor₀, hrev₀⟩, hmax⟩ := highestRevision_eq_some hrev
  constructor
  · intro hc
    obtain ⟨r, hr, rfl⟩ := List.mem_map.mp hc
    obtain ⟨hmem, hfor, rfl⟩ := mem_rowsAt.mp hr
    refine ⟨r.envelope, (hT.sound r hmem).1, hfor, rfl, fun e' he' hfor' => ?_⟩
    obtain ⟨r', hr', hfact⟩ := hT.complete e' he'
    have hfor'' : r'.envelope.isFor owner id :=
      ⟨(congrArg Fact.ownerPublicKey hfact).trans hfor'.1,
        (congrArg Fact.logicalOfferId hfact).trans hfor'.2⟩
    have hle := hmax r' hr' hfor''
    have hrev' : r'.row.revision = e'.revisionOf := congrArg Fact.revision hfact
    rw [← hrev']
    exact hle
  · rintro ⟨e, he, hfor, rfl, hhigh⟩
    obtain ⟨r, hr, hfact⟩ := hT.complete e he
    have howner : r.envelope.ownerPublicKey = e.ownerPublicKey :=
      congrArg Fact.ownerPublicKey hfact
    have hid : r.envelope.logicalOfferId = e.logicalOfferId := congrArg Fact.logicalOfferId hfact
    have hrevision : r.row.revision = e.revisionOf := congrArg Fact.revision hfact
    have hdigest : contentDigest sha256 r.envelope = contentDigest sha256 e :=
      (hT.sound r hr).2.symm.trans (congrArg Fact.contentDigest hfact)
    have hfor' : r.envelope.isFor owner id := ⟨howner.trans hfor.1, hid.trans hfor.2⟩
    have hge : rev ≤ r.row.revision := by
      rw [hrevision, ← hrev₀]
      exact hhigh _ (hT.sound r₀ hr₀).1 hfor₀
    refine List.mem_map.mpr ⟨r, mem_rowsAt.mpr ⟨hr, hfor', le_antisymm (hmax r hr hfor') hge⟩, ?_⟩
    exact hE.content_eq (hT.sound r hr).1 he hid hdigest

theorem TableOf.nodup_rowsAt (hT : TableOf sha256 E table) (rev : ℤ) :
    ((rowsAt table owner id rev).map fun r => r.row.fact).Nodup :=
  hT.nodup.sublist (List.filter_sublist.map _)

/-- The rows of a revision have different digests. -/
theorem TableOf.nodup_digests (hT : TableOf sha256 E table) (rev : ℤ) :
    ((rowsAt table owner id rev).map fun r => r.row.contentDigest).Nodup := by
  have h : ((rowsAt table owner id rev).map fun r => r.row.fact).Nodup := hT.nodup_rowsAt rev
  have hmap : ((rowsAt table owner id rev).map fun r => r.row.fact) =
      ((rowsAt table owner id rev).map fun r => r.row.contentDigest).map
        fun d => ⟨owner, id, rev, d⟩ := by
    rw [List.map_map]
    refine List.map_congr_left fun r hr => ?_
    obtain ⟨-, hfor, hrev⟩ := mem_rowsAt.mp hr
    have h1 : r.row.ownerPublicKey = owner := hfor.1
    have h2 : r.row.logicalOfferId = id := hfor.2
    simp [OfferEnvelopeRow.fact, h1, h2, hrev]
  rw [hmap] at h
  exact h.of_map _

/-- The rows of a revision have different contents. -/
theorem TableOf.nodup_contents (hT : TableOf sha256 E table) (rev : ℤ) :
    ((rowsAt table owner id rev).map fun r => r.envelope.content).Nodup := by
  have h : ((rowsAt table owner id rev).map fun r => r.row.fact).Nodup := hT.nodup_rowsAt rev
  have hmap : ((rowsAt table owner id rev).map fun r => r.row.fact) =
      ((rowsAt table owner id rev).map fun r => r.envelope.content).map
        (SignedOfferEnvelope.fact sha256) := by
    rw [List.map_map]
    exact List.map_congr_left fun r hr => hT.fact_eq (mem_rowsAt.mp hr).1
  rw [hmap] at h
  exact h.of_map _

/-- The verdict of rows that are the latest contents, in order. -/
theorem correct_of_rows {rows : List StoredRow} {rev : ℤ} (hne : rows ≠ [])
    (hmem : ∀ c, c ∈ rows.map (fun r => r.envelope.content) ↔ Latest E owner id c)
    (hnd : (rows.map fun r => r.envelope.content).Nodup)
    (hrev : ∀ r ∈ rows, r.row.revision = rev)
    (hsorted : (rows.map fun r => r.envelope.content).Pairwise fun a b =>
      (contentDigest sha256 a).map UInt16.toNat ≤ (contentDigest sha256 b).map UInt16.toNat) :
    Correct sha256 E owner id (match rows with
      | [] => LatestOfferState.NOT_FOUND
      | [row] => .RESOLVED row
      | rows => .EQUIVOCATED rev rows).verdict := by
  obtain ⟨r, rest, rfl⟩ := List.exists_cons_of_ne_nil hne
  have hsome : ¬ ∀ e ∈ E, ¬ e.isFor owner id := by
    intro hnone
    obtain ⟨e, he, hfor, -⟩ := (hmem r.envelope.content).mp (by simp)
    exact hnone e he hfor
  cases rest with
  | nil =>
    have hone : ∀ c', Latest E owner id c' ↔ c' = r.envelope.content := fun c' => by
      rw [← hmem c']
      simp
    refine ⟨?_, fun c => ?_, ?_⟩
    · simpa [LatestOfferState.verdict] using hsome
    · simp only [LatestOfferState.verdict, Verdict.resolved.injEq]
      constructor
      · rintro rfl
        exact hone
      · intro h
        exact (h _).mp ((hone _).mpr rfl)
    · intro _ _ h
      cases h
  | cons r' rest =>
    refine ⟨?_, fun c => ?_, ?_⟩
    · simpa [LatestOfferState.verdict] using hsome
    · simp only [LatestOfferState.verdict, reduceCtorEq, false_iff]
      intro h
      have hr := (h _).mp ((hmem r.envelope.content).mp (by simp))
      have hr' := (h _).mp ((hmem r'.envelope.content).mp (by simp))
      rw [List.map_cons, List.map_cons, hr, hr'] at hnd
      simp at hnd
    · intro rev' cs h
      obtain ⟨rfl, rfl⟩ := Verdict.equivocated.inj h
      refine ⟨by simp, hnd, hmem, ?_, hsorted⟩
      intro c hc
      obtain ⟨r₁, hr₁, rfl⟩ := List.mem_map.mp hc
      exact hrev r₁ hr₁

/-- `getLatest` gives the verdict the envelopes determine. -/
theorem TableOf.correct (hT : TableOf sha256 E table) (hE : CollisionFree sha256 E) :
    Correct sha256 E owner id (getLatest table owner id).verdict := by
  cases hrev : highestRevision table owner id with
  | none =>
    have hnone : ∀ e ∈ E, ¬ e.isFor owner id := by
      intro e he hfor
      obtain ⟨r, hr, hfact⟩ := hT.complete e he
      exact highestRevision_eq_none hrev r hr ⟨(congrArg Fact.ownerPublicKey hfact).trans hfor.1,
        (congrArg Fact.logicalOfferId hfact).trans hfor.2⟩
    rw [getLatest, hrev]
    refine ⟨⟨fun _ => hnone, fun _ => rfl⟩, fun c => ⟨fun h => (by cases h), fun h => ?_⟩,
      fun _ _ h => (by cases h)⟩
    obtain ⟨e, he, hfor, -⟩ := (h c).mpr rfl
    exact absurd hfor (hnone e he)
  | some rev =>
    have hperm := List.perm_insertionSort digestLe (rowsAt table owner id rev)
    have hin : ∀ r ∈ (rowsAt table owner id rev).insertionSort digestLe,
        r ∈ table ∧ r.envelope.isFor owner id ∧ r.row.revision = rev := fun r hr =>
      mem_rowsAt.mp (hperm.mem_iff.mp hr)
    rw [getLatest, hrev]
    simp only [distinctByContentDigest_eq (hT.nodup_digests rev)]
    refine correct_of_rows ?_ (fun c => ?_) ?_ (fun r hr => (hin r hr).2.2) ?_
    · obtain ⟨⟨r, hr, hfor, hr'⟩, -⟩ := highestRevision_eq_some hrev
      exact List.ne_nil_of_mem (hperm.mem_iff.mpr (mem_rowsAt.mpr ⟨hr, hfor, hr'⟩))
    · exact ((hperm.map _).mem_iff).trans (hT.mem_contents_iff hE hrev c)
    · exact ((hperm.map _).nodup_iff).mpr (hT.nodup_contents rev)
    · have hpair := List.pairwise_insertionSort digestLe (rowsAt table owner id rev)
      rw [List.pairwise_map]
      refine hpair.imp_of_mem fun {a b} ha hb hab => ?_
      unfold digestLe at hab
      rwa [(hT.sound a (hin a ha).1).2, (hT.sound b (hin b hb).1).2] at hab

end Table

end Verdicts

/-- A number in `w` hex digits. -/
def hexNumber (w n : ℕ) : JsString :=
  (List.range w).reverse.map fun i => hexDigit (n / 16 ^ i % 16)

/-- An offer signed with the Ed25519 key of the seed 0, 1, …, 31. -/
def signedOffer (price : JsString) (signature : ℕ) : SignedOfferEnvelope :=
  { sampleEnvelope (js "offer-1") with
    ownerPublicKey :=
      hexNumber 64 0x03a107bff3ce10be1d70dd18e74bc09967e4d6309ba50d5f1ddc8664125531b8
    priceUsd := price
    signature := hexNumber 128 signature }

/-- An offer at a price of 50000. -/
def offerAt50000 : SignedOfferEnvelope :=
  signedOffer (js "50000.00000000")
    (0x492218af3f08a3f0272d7c7a14e6e726fc68b52322fd0f8bd8af8799e2d4dca4 * 2 ^ 256 +
      0x3114ea68285589f6bc15c7d95794d38677cf32f355187a05a6f2480486c41202)

/-- The same revision at a price of 49000. -/
def offerAt49000 : SignedOfferEnvelope :=
  signedOffer (js "49000.00000000")
    (0x6ecfdabc77d712a608f37045491bca9cf8c4e1df12d18ac00a13f640d71be5aa * 2 ^ 256 +
      0xf76a0405f6f2031698c00e32e8a4dfbe8c01e920561411e78bc1647abf027a01)

/-- SHA-256 on the bytes of the two offers. -/
def offerSha256 (bytes : List UInt8) : List UInt8 :=
  if bytes = canonicalizeOfferEnvelope offerAt50000 then
    hexBytes (hexNumber 64 0x1ea499d1dfca8c689f4ef6227f5a26c4c63eae0ce2ad937b5a212522957bc5bb)
  else if bytes = canonicalizeOfferEnvelope offerAt49000 then
    hexBytes (hexNumber 64 0xced799fc09e2772c4d21f0b7b2dc16bb9744bfc2e1603d2bee5e53cbc66f451a)
  else []

/-- The signature check on the two offers. -/
def offerVerify (digest signature publicKey : List UInt8) : Bool :=
  [offerAt50000, offerAt49000].any fun e => digest = hashOfferEnvelope offerSha256 e ∧
    signature = hexBytes e.signature ∧ publicKey = hexBytes e.ownerPublicKey

/-- A query that is answered, with the id of the row it writes. -/
def answeredWith (newId : ℕ) : QueryEnv := ⟨.answered, newId⟩

/-- The first offer arrives twice at once, then the second. -/
def firstTwiceThenSecond : List (Action QueryEnv SignedOfferEnvelope) :=
  [.start offerAt50000, .start offerAt50000, .run 0 (answeredWith 1), .run 1 (answeredWith 2),
    .run 0 (answeredWith 3), .run 1 (answeredWith 4), .run 1 (answeredWith 5),
    .start offerAt49000, .run 2 (answeredWith 6), .run 2 (answeredWith 7)]

/-- The second offer arrives first, and the first while it is being stored. -/
def secondThenFirst : List (Action QueryEnv SignedOfferEnvelope) :=
  [.start offerAt49000, .run 0 (answeredWith 1), .start offerAt50000, .run 1 (answeredWith 2),
    .run 0 (answeredWith 3), .run 1 (answeredWith 4)]

end Sails.Offer
