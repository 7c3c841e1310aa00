import SailsProtocol.Intent.Engine

/-!
# The audit trail of an intent is one chain

Each row of the trail should carry the hash of the row written before it and start
from the status that row ended in (`Chain`). The conditional update lets only one
call leave a status (`Linear.claims_inj`), but the read of the last row and the write
of the next come later, so a call that left the next status may read and write before
the first one has.

The trail stays one chain as long as every call reads the last row at a time when the
row that brought the intent to the status it left is the newest one, in the order of
writing and by `createdAt` (`chain_of_reads_newest`). Two transitions in the wrong
order break it (`trail_out_of_order`).
-/

namespace Sails.Intent

open Async

/-- The intent and the calls on it. -/
abbrev EngineConfig := Config Answer EngineError Unit IntentStore Request Seen

/-- A step of a run of the engine. -/
abbrev EngineStep := Action QueryEnv Request

/-- The rows, newest first, form one chain. -/
def Chain : List IntentEvent → Prop
  | [] => True
  | [e] => e.prevHash = genesis
  | e :: e' :: rest =>
    e.prevHash = e'.entryHash ∧ e.fromStatus = some e'.toStatus ∧ Chain (e' :: rest)

instance decidableChain : ∀ events, Decidable (Chain events)
  | [] => isTrue trivial
  | [e] => inferInstanceAs (Decidable (e.prevHash = genesis))
  | e :: e' :: rest =>
    have : Decidable (Chain (e' :: rest)) := decidableChain (e' :: rest)
    inferInstanceAs (Decidable (e.prevHash = e'.entryHash ∧ e.fromStatus = some e'.toStatus ∧
      Chain (e' :: rest)))

/-- The newest row ended in `status`, and no other row is as late. -/
def EndsIn (events : List IntentEvent) (status : IntentStatus) : Prop :=
  match events with
  | [] => False
  | e :: rest => e.toStatus = status ∧ ∀ e' ∈ rest, e'.createdAt < e.createdAt

instance : ∀ events status, Decidable (EndsIn events status)
  | [], _ => isFalse id
  | e :: rest, status =>
    inferInstanceAs (Decidable (e.toStatus = status ∧ ∀ e' ∈ rest, e'.createdAt < e.createdAt))

/-- A claim that was seen left a status in which the trail ends. -/
def Seen.EndsAt (events : List IntentEvent) : Seen → Prop
  | .claimed src _ => EndsIn events src
  | _ => True

instance : ∀ events o, Decidable (Seen.EndsAt events o)
  | _, .claimed _ _ => inferInstanceAs (Decidable (EndsIn _ _))
  | _, .read _ => isTrue trivial
  | _, .wrote => isTrue trivial

/-- A call about to read the last row finds the row that brought the intent to the
status it left to be the newest one. -/
def ReadsNewest (c : EngineConfig) : EngineStep → Prop
  | .run i _ => c.next i = some .findLastEvent → ∀ o ∈ c.own i, o.EndsAt c.store.events
  | _ => True

instance (c : EngineConfig) : ∀ a, Decidable (ReadsNewest c a)
  | .start _ => isTrue trivial
  | .crash _ => isTrue trivial
  | .run i _ =>
    inferInstanceAs (Decidable (c.next i = some .findLastEvent →
      ∀ o ∈ c.own i, o.EndsAt c.store.events))

/-! ## What the calls do -/

/-- A transition is claimed along the table, and a row is written right after a read,
with what was read and what was claimed. -/
def Guard (_ : Request) (log : List Seen) : Call → Prop
  | .claimTransition src dst => src.canMoveTo dst = true
  | .createEvent data => ∃ rest src, log = .read data.prevHash :: rest ∧
      data.fromStatus = some src ∧ .claimed src data.toStatus ∈ rest
  | _ => True

/-- The store with the status claimed. -/
def IntentStore.moveTo (s : IntentStore) (status : IntentStatus) : IntentStore :=
  { s with record := { s.record with status } }

/-- A claim that is answered with a row has moved the intent. Any other claim leaves it,
or fails after moving it. -/
theorem exec_claimTransition (src dst : IntentStatus) (env : QueryEnv) (s : IntentStore) :
    ((Call.claimTransition src dst).exec env s = (.ok 1, s.moveTo dst) ∧ s.record.status = src) ∨
    (Call.claimTransition src dst).exec env s = (.ok 0, s) ∨
    (Call.claimTransition src dst).exec env s = (.error .fault, s) ∨
    ((Call.claimTransition src dst).exec env s = (.error .fault, s.moveTo dst) ∧
      s.record.status = src) := by
  unfold Call.exec
  by_cases hs : s.record.status = src
  · have hrun : (Call.claimTransition src dst).run env s = (.ok 1, s.moveTo dst) := by
      rw [Call.run, if_pos hs]
      rfl
    rw [hrun]
    cases env.fate
    · exact Or.inl ⟨rfl, hs⟩
    · exact Or.inr (Or.inr (Or.inl rfl))
    · exact Or.inr (Or.inr (Or.inr ⟨rfl, hs⟩))
  · have hrun : (Call.claimTransition src dst).run env s = (.ok 0, s) := by
      rw [Call.run, if_neg hs]
    rw [hrun]
    cases env.fate
    · exact Or.inr (Or.inl rfl)
    · exact Or.inr (Or.inr (Or.inl rfl))
    · exact Or.inr (Or.inr (Or.inl rfl))

section Programs

variable {sha256 : String → String} {req : Request}

/-- Every call of the program is as `Guard` says. -/
abbrev Guards {α : Type} (sha256 : String → String) (req : Request)
    (p : Prog Answer EngineError α) (log : List Seen) : Prop :=
  p.Guarded (Config.Answerable (engine sha256) fun _ => True) (engine sha256).observe (Guard req)
    (fun _ _ => True) log

/-- Sequencing two guarded programs. -/
theorem Guards.bind {α β : Type} {p : Prog Answer EngineError α}
    {f : α → Prog Answer EngineError β} {log : List Seen}
    (hp : p.Guarded (Config.Answerable (engine sha256) fun _ => True) (engine sha256).observe
      (Guard req) (fun log r => ∀ a, r = .ok a → Guards sha256 req (f a) log) log) :
    Guards sha256 req (p >>= f) log := by
  refine (Prog.guarded_bind f p log).mpr (hp.mono fun log' r hr => ?_)
  cases r with
  | error e => trivial
  | ok a => exact hr a rfl

theorem Guards.then {α β : Type} {p : Prog Answer EngineError α}
    {f : α → Prog Answer EngineError β} {log : List Seen} (hp : Guards sha256 req p log)
    (hf : ∀ a log, Guards sha256 req (f a) log) : Guards sha256 req (p >>= f) log :=
  Guards.bind (hp.mono fun log' _ _ a _ => hf a log')

theorem guards_perform {q : Call} {log : List Seen} (h : Guard req log q) :
    Guards sha256 req (Prog.perform q) log :=
  ⟨h, fun _ _ _ => trivial⟩

theorem guards_require {b : Bool} {e : EngineError} {log : List Seen} :
    Guards sha256 req (Prog.require b e) log :=
  (Prog.guarded_require b e).mpr ⟨fun _ => trivial, fun _ => trivial⟩

theorem writeIntentEvent_guards {src dst : IntentStatus} {triggeredBy : String} {log : List Seen}
    (h : .claimed src dst ∈ log) :
    Guards sha256 req (writeIntentEvent sha256 (some src) dst triggeredBy) log := by
  unfold writeIntentEvent
  refine Guards.bind ⟨trivial, fun s r _ last hlast => ?_⟩
  subst hlast
  exact guards_perform ⟨log, src, rfl, rfl, h⟩

/-- The claim and what follows it meet their guards. -/
theorem advance_guards {src dst : IntentStatus} {triggeredBy : String} {log : List Seen} :
    Guards sha256 req (advance sha256 src dst triggeredBy) log := by
  unfold advance
  refine Guards.bind ((Prog.guarded_require _ _).mpr ⟨fun hmove _ _ => ?_, fun _ _ h => by cases h⟩)
  refine Guards.bind ⟨hmove, fun s r hr n hn => ?_⟩
  subst hn
  refine Guards.bind ((Prog.guarded_require _ _).mpr ⟨fun hne _ _ => ?_, fun _ _ h => by cases h⟩)
  -- A claim is answered with one row or none, and only one row gets here.
  have hclaimed : n = 1 := by
    obtain ⟨-, env, henv⟩ := hr
    change ((Call.claimTransition src dst).exec env s).1 = .ok n at henv
    rcases exec_claimTransition src dst env s with ⟨h, -⟩ | h | h | ⟨h, -⟩ <;> rw [h] at henv
    · exact (Except.ok.inj henv).symm
    · obtain rfl := Except.ok.inj henv
      simp at hne
    · cases henv
    · cases henv
  subst hclaimed
  refine Guards.bind ⟨trivial, fun s' r' _ record hrecord => ?_⟩
  subst hrecord
  refine Guards.then (writeIntentEvent_guards ?_) fun _ _ => ?_
  · exact List.mem_append_right _ (List.mem_append_left _ (List.mem_singleton_self _))
  · exact Guards.then (guards_perform trivial) fun _ _ => trivial

theorem expire_guards {log : List Seen} : Guards sha256 req (expire sha256) log :=
  Guards.then (guards_perform trivial) fun _ _ => advance_guards

/-- A transition meets its guards. -/
theorem transition_guards {dst : IntentStatus} {triggeredBy : String} {log : List Seen} :
    Guards sha256 req (transition sha256 dst triggeredBy) log := by
  unfold transition
  refine Guards.then (guards_perform trivial) fun record _ => ?_
  refine Guards.then (guards_perform trivial) fun now _ => ?_
  split
  · exact Guards.then expire_guards fun _ _ => trivial
  · exact advance_guards

/-- A cancellation meets its guards. -/
theorem cancel_guards {cancelledBy : String} {log : List Seen} :
    Guards sha256 req (cancel sha256 cancelledBy) log := by
  unfold cancel
  refine Guards.then (guards_perform trivial) fun record _ => ?_
  refine Guards.then guards_require fun _ _ => ?_
  refine Guards.then (guards_perform trivial) fun now _ => ?_
  split
  · exact Guards.then expire_guards fun _ _ => trivial
  · exact Guards.then transition_guards fun _ _ => trivial

theorem prog_guards (req : Request) : Guards sha256 req ((engine sha256).prog req) [] := by
  cases req with
  | transition dst triggeredBy => exact Guards.then transition_guards fun _ _ => trivial
  | cancel cancelledBy => exact cancel_guards

end Programs

/-! ## Runs -/

/-- What a run whose calls read the newest row keeps. Every claim left a status below
the current one, no two calls left the same status, and a call that read the last row
and has not tried to write yet read the hash of the row that is still the newest, which
brought the intent to the status the call left. -/
structure Linear (c : EngineConfig) : Prop where
  chain : Chain c.store.events
  claims_lt : ∀ {i src dst}, (i, Seen.claimed src dst) ∈ c.trace →
    src.rank < c.store.record.status.rank
  claims_inj : ∀ {i j src dst dst'}, (i, Seen.claimed src dst) ∈ c.trace →
    (j, Seen.claimed src dst') ∈ c.trace → i = j
  pending : ∀ {i prevHash src dst rest}, c.own i = .read prevHash :: rest →
    .claimed src dst ∈ rest →
    ∃ e, c.store.events.head? = some e ∧ e.entryHash = prevHash ∧ e.toStatus = src

/-- The row of the latest time is returned when it is the only one. -/
theorem findLast_of_endsIn {events : List IntentEvent} {status : IntentStatus}
    (h : EndsIn events status) (pick : ℕ) :
    ∃ e, events.head? = some e ∧ e.toStatus = status ∧ findLast events pick = some e := by
  cases events with
  | nil => cases h
  | cons e rest =>
    refine ⟨e, rfl, h.1, ?_⟩
    have hlatest : latestEvents (e :: rest) = [e] := by
      have hrest : rest.filter (fun e' => (e :: rest).all fun e'' => e''.createdAt ≤ e'.createdAt)
          = [] := by
        rw [List.filter_eq_nil_iff]
        intro e' he' hall
        have hle := List.all_eq_true.mp hall e (by simp)
        have hlt := h.2 e' he'
        simp only [decide_eq_true_eq] at hle
        omega
      have hself : ((e :: rest).all fun e'' => e''.createdAt ≤ e.createdAt) = true := by
        rw [List.all_eq_true]
        intro e' he'
        rcases List.mem_cons.mp he' with rfl | he'
        · simp
        · simpa using (h.2 e' he').le
      unfold latestEvents
      rw [List.filter_cons, if_pos hself, hrest]
    rw [findLast, hlatest]
    simp [Nat.mod_one]

/-- A chain with one more event that continues it. -/
theorem chain_cons {e : IntentEvent} {events : List IntentEvent} {e' : IntentEvent}
    (h : Chain events) (hhead : events.head? = some e') (hprev : e.prevHash = e'.entryHash)
    (hsrc : e.fromStatus = some e'.toStatus) : Chain (e :: events) := by
  cases events with
  | nil => cases hhead
  | cons e'' rest =>
    obtain rfl := Option.some.inj hhead
    exact ⟨hprev, hsrc, h⟩

section Runs

variable {sha256 : String → String} {c : EngineConfig} {i : ℕ} {env : QueryEnv} {req : Request}

/-- What is in the trace after a call was shown by it, or was there. -/
theorem mem_trace_answer {q : Call} {k : Except EngineError (Answer q) → Prog Answer EngineError Unit}
    {j : ℕ} {o : Seen} (h : (j, o) ∈ (c.answer (engine sha256) i env req q k).trace) :
    j = i ∧ o ∈ q.observe c.store (q.exec env c.store).1 ∨ (j, o) ∈ c.trace := by
  rcases List.mem_append.mp h with h | h
  · obtain ⟨o', ho', heq⟩ := List.mem_map.mp h
    obtain ⟨rfl, rfl⟩ := Prod.mk.inj heq
    exact Or.inl ⟨rfl, ho'⟩
  · exact Or.inr h

/-- A call that is seen to do nothing and changes no row keeps the invariant, also when
it moves the intent forward. -/
theorem Linear.quiet {q : Call} {k : Except EngineError (Answer q) → Prog Answer EngineError Unit}
    (hI : Linear c) (hobs : q.observe c.store (q.exec env c.store).1 = [])
    (hevents : (q.exec env c.store).2.events = c.store.events)
    (hrank : c.store.record.status.rank ≤ (q.exec env c.store).2.record.status.rank) :
    Linear (c.answer (engine sha256) i env req q k) := by
  have htrace : (c.answer (engine sha256) i env req q k).trace = c.trace := by
    change (q.observe c.store (q.exec env c.store).1).map (Prod.mk i) ++ c.trace = c.trace
    rw [hobs]
    rfl
  have hown : ∀ j, (c.answer (engine sha256) i env req q k).own j = c.own j := by
    intro j
    unfold Config.own
    rw [htrace]
  have hev : (c.answer (engine sha256) i env req q k).store.events = c.store.events := hevents
  refine ⟨hev ▸ hI.chain, fun h => ?_, fun h h' => ?_, fun h hmem => ?_⟩
  · rw [htrace] at h
    exact lt_of_lt_of_le (hI.claims_lt h) hrank
  · rw [htrace] at h h'
    exact hI.claims_inj h h'
  · rw [hown] at h
    rw [hev]
    exact hI.pending h hmem

/-- A call that changes nothing and is seen to do nothing keeps the invariant. -/
theorem Linear.idle {q : Call} {k : Except EngineError (Answer q) → Prog Answer EngineError Unit}
    (hI : Linear c) (hobs : ∀ r, q.observe c.store r = [])
    (hrun : (q.run env c.store).2 = c.store) :
    Linear (c.answer (engine sha256) i env req q k) := by
  have hstore : (q.exec env c.store).2 = c.store := by
    rcases env.fate.settle_store EngineError.fault (q.run env c.store) c.store with h | h
    · exact h
    · exact h.trans hrun
  exact hI.quiet (hobs _) (by rw [hstore]) (by rw [hstore])

/-- A claim moves the intent on, out of a status no call has left. -/
theorem Linear.claim {src dst : IntentStatus}
    {k : Except EngineError ℕ → Prog Answer EngineError Unit} (hI : Linear c)
    (hmove : src.canMoveTo dst = true) :
    Linear (c.answer (engine sha256) i env req (.claimTransition src dst) k) := by
  have hrank := IntentStatus.rank_lt_of_canMoveTo hmove
  rcases exec_claimTransition src dst env c.store with ⟨h, hsrc⟩ | h | h | ⟨h, hsrc⟩
  · have hstore : (c.answer (engine sha256) i env req (.claimTransition src dst) k).store =
        c.store.moveTo dst := congrArg Prod.snd h
    have hobs : ∀ {j o}, (j, o) ∈
        (c.answer (engine sha256) i env req (.claimTransition src dst) k).trace →
        j = i ∧ o = .claimed src dst ∨ (j, o) ∈ c.trace := by
      intro j o hjo
      rcases mem_trace_answer hjo with ⟨rfl, ho⟩ | hjo
      · rw [h] at ho
        exact Or.inl ⟨rfl, List.mem_singleton.mp ho⟩
      · exact Or.inr hjo
    refine ⟨by rw [hstore]; exact hI.chain, fun hm => ?_, fun hm hm' => ?_, fun hown hmem => ?_⟩
    · rw [hstore]
      rcases hobs hm with ⟨-, heq⟩ | hm
      · obtain ⟨rfl, rfl⟩ := Seen.claimed.inj heq
        exact hrank
      · have hlt := hI.claims_lt hm
        rw [hsrc] at hlt
        exact hlt.trans hrank
    · have hnew : ∀ {j dst'}, (j, Seen.claimed src dst') ∉ c.trace := fun h =>
        absurd (hI.claims_lt h) (by rw [hsrc]; exact lt_irrefl _)
      rcases hobs hm with ⟨rfl, heq⟩ | hold
      · rcases hobs hm' with ⟨rfl, -⟩ | hold'
        · rfl
        · rw [(Seen.claimed.inj heq).1] at hold'
          exact absurd hold' hnew
      · rcases hobs hm' with ⟨rfl, heq⟩ | hold'
        · rw [(Seen.claimed.inj heq).1] at hold
          exact absurd hold hnew
        · exact hI.claims_inj hold hold'
    · rw [hstore]
      rename_i j _ _ _ _
      by_cases hj : j = i
      · subst hj
        rw [Config.own_answer_self] at hown
        change Call.observe _ _ ((Call.claimTransition src dst).exec env c.store).1 ++ _ = _ at hown
        rw [h] at hown
        cases hown
      · rw [Config.own_answer_of_ne hj] at hown
        exact hI.pending hown hmem
  · exact hI.quiet (by rw [h]; rfl) (by rw [h]) (by rw [h])
  · exact hI.quiet (by rw [h]; rfl) (by rw [h]) (by rw [h])
  · refine hI.quiet (by rw [h]; rfl) (by rw [h]; rfl) ?_
    rw [h, hsrc]
    exact hrank.le

/-- A call that reads the newest row reads the hash of the row that brought the intent
to the status the call left. -/
theorem Linear.readLast
    {k : Except EngineError (Option IntentEvent) → Prog Answer EngineError Unit} (hI : Linear c)
    (hnewest : ∀ o ∈ c.own i, o.EndsAt c.store.events) :
    Linear (c.answer (engine sha256) i env req .findLastEvent k) := by
  rcases env.fate.settle_answer EngineError.fault (Call.findLastEvent.run env c.store) c.store
    with h | h
  · have hexec : Call.findLastEvent.exec env c.store =
        (.ok (findLast c.store.events env.pick), c.store) := h
    have hstore : (c.answer (engine sha256) i env req .findLastEvent k).store = c.store :=
      congrArg Prod.snd hexec
    have htrace : ∀ {j src dst}, (j, Seen.claimed src dst) ∈
        (c.answer (engine sha256) i env req .findLastEvent k).trace →
        (j, Seen.claimed src dst) ∈ c.trace := by
      intro j src dst hm
      rcases mem_trace_answer hm with ⟨-, ho⟩ | hm
      · rw [hexec] at ho
        cases List.mem_singleton.mp ho
      · exact hm
    refine ⟨hstore ▸ hI.chain, fun hm => hstore ▸ hI.claims_lt (htrace hm),
      fun hm hm' => hI.claims_inj (htrace hm) (htrace hm'), ?_⟩
    intro j prevHash src dst rest hown hmem
    rw [hstore]
    by_cases hj : j = i
    · subst hj
      rw [Config.own_answer_self] at hown
      change Call.observe _ _ (Call.findLastEvent.exec env c.store).1 ++ _ = _ at hown
      rw [hexec] at hown
      obtain ⟨hread, hrest⟩ := List.cons.inj hown
      change c.own j = rest at hrest
      have hends : EndsIn c.store.events src := hnewest (.claimed src dst) (hrest ▸ hmem)
      obtain ⟨e, hhead, hto, hlast⟩ := findLast_of_endsIn hends env.pick
      refine ⟨e, hhead, ?_, hto⟩
      rw [hlast] at hread
      exact Seen.read.inj hread
    · rw [Config.own_answer_of_ne hj] at hown
      exact hI.pending hown hmem
  · have hstore : (Call.findLastEvent.exec env c.store).2 = c.store :=
      (env.fate.settle_store EngineError.fault (Call.findLastEvent.run env c.store) c.store).elim
        id id
    have hans : (Call.findLastEvent.exec env c.store).1 = .error .fault := h
    exact hI.quiet (by rw [hans]; rfl) (by rw [hstore]) (by rw [hstore])

/-- A call that writes its row extends the chain, and no other call was about to. -/
theorem Linear.write {data : EventData}
    {k : Except EngineError Unit → Prog Answer EngineError Unit} (hI : Linear c)
    (hguard : Guard req (c.own i) (.createEvent data)) :
    Linear (c.answer (engine sha256) i env req (.createEvent data) k) := by
  obtain ⟨rest, src, hown, hsrc, hclaim⟩ := hguard
  obtain ⟨e, hhead, hhash, hto⟩ := hI.pending hown hclaim
  have hstore : (c.answer (engine sha256) i env req (.createEvent data) k).store = c.store ∨
      (c.answer (engine sha256) i env req (.createEvent data) k).store =
        { c.store with events := data.at env.now :: c.store.events } :=
    env.fate.settle_store EngineError.fault ((Call.createEvent data).run env c.store) c.store
  have htrace : ∀ {j src dst}, (j, Seen.claimed src dst) ∈
      (c.answer (engine sha256) i env req (.createEvent data) k).trace →
      (j, Seen.claimed src dst) ∈ c.trace := by
    intro j src dst hm
    rcases mem_trace_answer hm with ⟨-, ho⟩ | hm
    · cases List.mem_singleton.mp ho
    · exact hm
  have hrecord : (c.answer (engine sha256) i env req (.createEvent data) k).store.record =
      c.store.record := by
    rcases hstore with h | h <;> rw [h]
  refine ⟨?_, fun hm => hrecord ▸ hI.claims_lt (htrace hm),
    fun hm hm' => hI.claims_inj (htrace hm) (htrace hm'), ?_⟩
  · rcases hstore with h | h <;> rw [h]
    · exact hI.chain
    · exact chain_cons hI.chain hhead hhash.symm (hsrc.trans (by rw [hto]))
  · intro j prevHash src' dst' rest' hown' hmem'
    by_cases hj : j = i
    · subst hj
      rw [Config.own_answer_self] at hown'
      cases hown'
    · -- Another call that is about to write left the same status, so it is this one.
      rw [Config.own_answer_of_ne hj] at hown'
      obtain ⟨e', hhead', -, hto'⟩ := hI.pending hown' hmem'
      obtain rfl := Option.some.inj (hhead.symm.trans hhead')
      have hmine : (i, Seen.claimed src data.toStatus) ∈ c.trace :=
        Config.mem_own.mp (hown ▸ List.mem_cons_of_mem _ hclaim)
      have hother : (j, Seen.claimed src dst') ∈ c.trace := by
        rw [← hto, hto']
        exact Config.mem_own.mp (hown' ▸ List.mem_cons_of_mem _ hmem')
      exact absurd (hI.claims_inj hother hmine) hj

end Runs

/-- In every run in which each call reads the last row while the row that brought the
intent to the status the call left is the newest one, the trail is one chain. -/
theorem chain_of_reads_newest (sha256 : String → String) (s : IntentStore)
    (hs : Chain s.events) (as : List EngineStep)
    (hreads : Config.Along (engine sha256) ReadsNewest (Config.init s) as) :
    Chain ((Config.init s).exec (engine sha256) as).store.events := by
  refine (Config.run_invariant (S := engine sha256) (R := fun _ => True) (G := Guard)
    (Q := fun _ _ _ => True) (I := Linear) prog_guards (fun _ _ _ _ => trivial) ?_ ?_ ?_ as
    (Config.conforms_init trivial) ?_ hreads).2.chain
  · intro c req _ hI _
    exact ⟨hI.chain, hI.claims_lt, hI.claims_inj, hI.pending⟩
  · intro c i env req q k _ hI hA ht hg
    cases q with
    | findById => exact hI.idle (fun _ => rfl) rfl
    | clock => exact hI.idle (fun _ => rfl) rfl
    | emit dst => exact hI.idle (fun _ => rfl) rfl
    | claimTransition src dst => exact hI.claim hg
    | findLastEvent => exact hI.readLast (hA (Config.next_of_call ht))
    | createEvent data => exact hI.write hg
  · intro c i t _ hI _ _
    exact ⟨hI.chain, hI.claims_lt, hI.claims_inj, hI.pending⟩
  · exact ⟨hs, fun h => (by cases h), fun h => (by cases h), fun h => (by cases h)⟩

/-- A freshly created intent. -/
def createdIntent : IntentStore where
  record := ⟨"alice", .CREATED, none⟩
  events := [⟨none, .CREATED, "alice", genesis, "h0", 0⟩]

/-- A call that is answered at the time. -/
def answeredAt (now : ℕ) : QueryEnv := ⟨.answered, now, 0⟩

/-- One transition after the other, each step answered. -/
def oneAfterTheOther : List EngineStep :=
  .start (.transition .VALIDATED "alice") :: (List.range 7).map (fun n => .run 0 (answeredAt (n + 1)))
    ++ .start (.cancel "alice") :: (List.range 9).map fun n => .run 1 (answeredAt (n + 10))

theorem chain_of_reads_newest_created :
    Chain ((Config.init createdIntent).exec (engine id) oneAfterTheOther).store.events ∧
    ((Config.init createdIntent).exec (engine id) oneAfterTheOther).store.events.length = 3 :=
  ⟨chain_of_reads_newest id createdIntent (by decide) oneAfterTheOther (by decide +kernel),
    by decide +kernel⟩

/-- The first call claims `VALIDATED` and stops before it reads the trail ; the second
goes from there to `COORDINATED` and writes its row ; then the first writes its own. -/
def secondWritesFirst : List EngineStep :=
  .start (.transition .VALIDATED "alice") :: (List.range 3).map (fun n => .run 0 (answeredAt n))
    ++ .start (.transition .COORDINATED "alice") ::
      (List.range 7).map (fun n => .run 1 (answeredAt (n + 3)))
    ++ (List.range 4).map fun n => .run 0 (answeredAt (n + 10))

/-- The row of the second transition stands before that of the first. -/
theorem trail_out_of_order :
    ¬ ∀ (sha256 : String → String) (s : IntentStore), Chain s.events → ∀ as : List EngineStep,
      Chain ((Config.init s).exec (engine sha256) as).store.events := by
  intro h
  have hchain := h id createdIntent (by decide) secondWritesFirst
  revert hchain
  decide +kernel

end Sails.Intent
