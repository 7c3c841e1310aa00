import SailsProtocol.Async.Program

/-!
# A pool of programs over one store

`System` fixes what the calls of a family of programs do to a shared store, what is
observed of them, and which program serves each request. A `Config` is the store, the
threads started so far and the trace of all observations, newest first. An `Action`
starts a request, lets one thread make its next call, or crashes a thread. The
environment answers every call (`Env`) : it decides which calls fail, what an outside
service returns and what the clock shows. A run is a list of actions, so a statement
about every list of actions is a statement about every interleaving, every choice of
failing calls and every crash.

`Conforms` carries the guards of the programs to every reached configuration : a
thread is always guarded at its own log. `run_invariant` is the induction every
property of runs uses. It has one case per kind of step, and the case of a call comes
with the guard of that call.
-/

namespace Async

variable {Call : Type} {Ans : Call → Type} {ε α σ Env Req Obs : Type}

/-- Calls on a store, and the program of each request. -/
structure System {Call : Type} (Ans : Call → Type) (ε α σ Env Req Obs : Type) where
  /-- The answer to a call, and the store after it. -/
  exec : ∀ c : Call, Env → σ → Except ε (Ans c) × σ
  /-- What is observed of a call made in a store and answered so. -/
  observe : ∀ c : Call, σ → Except ε (Ans c) → List Obs
  /-- The program that serves a request. -/
  prog : Req → Prog Ans ε α

/-- How a call on a database ends : answered, failed with no effect, or failed after
its effect. -/
inductive Fate where
  | answered | failed | lost
  deriving DecidableEq, Repr

/-- The answer and the store after a call that would give `r` in the store `s`. -/
def Fate.settle {β : Type} (fate : Fate) (fault : ε) (r : Except ε β × σ) (s : σ) :
    Except ε β × σ :=
  match fate with
  | .answered => r
  | .failed => (.error fault, s)
  | .lost => (.error fault, r.2)

theorem Fate.settle_store {β : Type} (fate : Fate) (fault : ε) (r : Except ε β × σ) (s : σ) :
    (fate.settle fault r s).2 = s ∨ (fate.settle fault r s).2 = r.2 := by
  cases fate
  · exact Or.inr rfl
  · exact Or.inl rfl
  · exact Or.inr rfl

/-- An answer is the call's own answer or the fault. -/
theorem Fate.settle_answer {β : Type} (fate : Fate) (fault : ε) (r : Except ε β × σ) (s : σ) :
    fate.settle fault r s = r ∨ (fate.settle fault r s).1 = .error fault := by
  cases fate
  · exact Or.inl rfl
  · exact Or.inr rfl
  · exact Or.inr rfl

/-- A started request and what is left of its program. -/
structure Thread {Call : Type} (Ans : Call → Type) (ε α Req : Type) where
  req : Req
  prog : Prog Ans ε α
  /-- Cleared by a crash. -/
  live : Bool

/-- The thread will make no further call : it returned, threw or crashed. -/
def Thread.idle (t : Thread Ans ε α Req) : Bool :=
  match t.prog with
  | .ret _ => true
  | .call _ _ => !t.live

/-- One step of a run. -/
inductive Action (Env Req : Type)
  | start (req : Req)
  | run (i : ℕ) (env : Env)
  | crash (i : ℕ)

/-- The request an action starts. -/
def Action.started : Action Env Req → Option Req
  | .start req => some req
  | _ => none

/-- The store, the threads in the order they were started, and everything observed so
far with the thread it was observed of, newest first. -/
structure Config {Call : Type} (Ans : Call → Type) (ε α σ Req Obs : Type) where
  store : σ
  threads : List (Thread Ans ε α Req)
  trace : List (ℕ × Obs)

namespace Config

variable (S : System Ans ε α σ Env Req Obs) (c : Config Ans ε α σ Req Obs)

/-- The configuration before any request. -/
def init (s : σ) : Config Ans ε α σ Req Obs :=
  ⟨s, [], []⟩

/-- The observations of thread `i`. -/
def own (i : ℕ) : List Obs :=
  c.trace.filterMap fun e => if e.1 = i then some e.2 else none

/-- Start a thread for `req`. -/
def spawn (req : Req) : Config Ans ε α σ Req Obs :=
  { c with threads := c.threads ++ [⟨req, S.prog req, true⟩] }

/-- Thread `i`, serving `req`, makes the call `q` and goes on with the answer. -/
def answer (i : ℕ) (env : Env) (req : Req) (q : Call)
    (k : Except ε (Ans q) → Prog Ans ε α) : Config Ans ε α σ Req Obs where
  store := (S.exec q env c.store).2
  threads := c.threads.set i ⟨req, k (S.exec q env c.store).1, true⟩
  trace := (S.observe q c.store (S.exec q env c.store).1).map (Prod.mk i) ++ c.trace

/-- Thread `i` stops where it is. -/
def kill (i : ℕ) (t : Thread Ans ε α Req) : Config Ans ε α σ Req Obs :=
  { c with threads := c.threads.set i { t with live := false } }

/-- One step. An action of a thread that does not exist or is idle changes nothing. -/
def step : Action Env Req → Config Ans ε α σ Req Obs
  | .start req => c.spawn S req
  | .run i env =>
    match c.threads[i]? with
    | some ⟨req, .call q k, true⟩ => c.answer S i env req q k
    | _ => c
  | .crash i =>
    match c.threads[i]? with
    | some t => c.kill i t
    | none => c

/-- The configuration after a list of steps. -/
def exec (as : List (Action Env Req)) : Config Ans ε α σ Req Obs :=
  as.foldl (Config.step S) c

/-- The call thread `i` makes next, when it is still running. -/
def next (i : ℕ) : Option Call :=
  match c.threads[i]? with
  | some ⟨_, .call q _, true⟩ => some q
  | _ => none

/-- No thread will make a further call. -/
def quiescent : Bool :=
  c.threads.all Thread.idle

/-- Every step of the run meets the condition `A`. -/
def Along (A : Config Ans ε α σ Req Obs → Action Env Req → Prop) :
    Config Ans ε α σ Req Obs → List (Action Env Req) → Prop
  | _, [] => True
  | c, a :: as => A c a ∧ Along A (c.step S a) as

instance decidableAlong {A : Config Ans ε α σ Req Obs → Action Env Req → Prop}
    [∀ c a, Decidable (A c a)] : ∀ c as, Decidable (Along S A c as)
  | _, [] => isTrue trivial
  | c, a :: as =>
    have : Decidable (Along S A (c.step S a) as) := decidableAlong (c.step S a) as
    inferInstanceAs (Decidable (A c a ∧ Along S A (c.step S a) as))

variable {S c}

@[simp] theorem exec_nil : c.exec S [] = c :=
  rfl

@[simp] theorem exec_cons (a : Action Env Req) (as : List (Action Env Req)) :
    c.exec S (a :: as) = (c.step S a).exec S as :=
  rfl

theorem exec_append (as bs : List (Action Env Req)) :
    c.exec S (as ++ bs) = (c.exec S as).exec S bs :=
  List.foldl_append

theorem along_append {A : Config Ans ε α σ Req Obs → Action Env Req → Prop} :
    ∀ {c : Config Ans ε α σ Req Obs} {as bs : List (Action Env Req)},
      Along S A c (as ++ bs) ↔ Along S A c as ∧ Along S A (c.exec S as) bs
  | _, [], _ => by simp [Along]
  | _, a :: as, bs => by
    simp only [List.cons_append, Along, exec_cons, and_assoc]
    exact and_congr_right fun _ => along_append

/-- Weakening the condition of a run. -/
theorem Along.mono {A B : Config Ans ε α σ Req Obs → Action Env Req → Prop}
    (hAB : ∀ c a, A c a → B c a) :
    ∀ {c : Config Ans ε α σ Req Obs} {as : List (Action Env Req)},
      Along S A c as → Along S B c as
  | _, [], _ => trivial
  | _, _ :: _, h => ⟨hAB _ _ h.1, h.2.mono hAB⟩

theorem along_true : ∀ {c : Config Ans ε α σ Req Obs} (as : List (Action Env Req)),
    Along S (fun _ _ => True) c as
  | _, [] => trivial
  | _, _ :: as => ⟨trivial, along_true as⟩

/-- Adding a condition on the steps alone. -/
theorem Along.and_forall {A : Config Ans ε α σ Req Obs → Action Env Req → Prop}
    {P : Action Env Req → Prop} : ∀ {c : Config Ans ε α σ Req Obs} {as : List (Action Env Req)},
      Along S A c as → (∀ a ∈ as, P a) → Along S (fun c a => A c a ∧ P a) c as
  | _, [], _, _ => trivial
  | _, a :: _, h, hP => ⟨⟨h.1, hP a List.mem_cons_self⟩,
      h.2.and_forall fun b hb => hP b (List.mem_cons_of_mem a hb)⟩

theorem Along.and {A B : Config Ans ε α σ Req Obs → Action Env Req → Prop} :
    ∀ {c : Config Ans ε α σ Req Obs} {as : List (Action Env Req)},
      Along S A c as → Along S B c as → Along S (fun c a => A c a ∧ B c a) c as
  | _, [], _, _ => trivial
  | _, _ :: _, hA, hB => ⟨⟨hA.1, hB.1⟩, hA.2.and hB.2⟩

/-- What holds at the end of a run and is never regained holds after each of its steps. -/
theorem along_of_exec {I : Config Ans ε α σ Req Obs → Prop}
    (hback : ∀ {c : Config Ans ε α σ Req Obs} {a : Action Env Req}, I (c.step S a) → I c) :
    ∀ {c : Config Ans ε α σ Req Obs} {as : List (Action Env Req)}, I (c.exec S as) →
      I c ∧ Along S (fun c a => I (c.step S a)) c as
  | _, [], h => ⟨h, trivial⟩
  | c, a :: as, h => by
    rw [exec_cons] at h
    have hrest := along_of_exec hback h
    exact ⟨hback hrest.1, hrest⟩

/-- What a step can do : nothing, start a thread, answer a call, or crash a thread. -/
theorem step_cases (a : Action Env Req) :
    c.step S a = c ∨ (∃ req, a = .start req ∧ c.step S a = c.spawn S req) ∨
      (∃ i env req, ∃ (q : Call) (k : Except ε (Ans q) → Prog Ans ε α),
        a = .run i env ∧ c.threads[i]? = some ⟨req, .call q k, true⟩ ∧
          c.step S a = c.answer S i env req q k) ∨
      ∃ i t, a = .crash i ∧ c.threads[i]? = some t ∧ c.step S a = c.kill i t := by
  cases a with
  | start req => exact Or.inr (Or.inl ⟨req, rfl, rfl⟩)
  | run i env =>
    rcases ht : c.threads[i]? with _ | ⟨req, ⟨r⟩ | ⟨q, k⟩, _ | _⟩
    · exact Or.inl (by simp [step, ht])
    · exact Or.inl (by simp [step, ht])
    · exact Or.inl (by simp [step, ht])
    · exact Or.inl (by simp [step, ht])
    · exact Or.inr (Or.inr (Or.inl ⟨i, env, req, q, k, rfl, ht, by simp [step, ht]⟩))
  | crash i =>
    cases ht : c.threads[i]? with
    | none => exact Or.inl (by simp [step, ht])
    | some t => exact Or.inr (Or.inr (Or.inr ⟨i, t, rfl, ht, by simp [step, ht]⟩))

/-! ## The next calls -/

theorem next_of_call {i : ℕ} {req : Req} {q : Call} {k : Except ε (Ans q) → Prog Ans ε α}
    (ht : c.threads[i]? = some ⟨req, .call q k, true⟩) : c.next i = some q := by
  rw [next, ht]

/-- A thread with a next call is live and about to make it. -/
theorem call_of_next {i : ℕ} {q : Call} (hn : c.next i = some q) :
    ∃ (req : Req) (k : Except ε (Ans q) → Prog Ans ε α),
      c.threads[i]? = some ⟨req, .call q k, true⟩ := by
  unfold next at hn
  rcases ht : c.threads[i]? with _ | ⟨req, ⟨r⟩ | ⟨q', k⟩, _ | _⟩ <;> rw [ht] at hn
  · cases hn
  · cases hn
  · cases hn
  · cases hn
  · cases hn
    exact ⟨req, k, rfl⟩

theorem next_length {i : ℕ} (hi : c.threads.length ≤ i) : c.next i = none := by
  rw [next, List.getElem?_eq_none hi]

theorem next_spawn_of_ne {i : ℕ} (hi : i ≠ c.threads.length) (req : Req) :
    (c.spawn S req).next i = c.next i := by
  rcases Nat.lt_or_gt_of_ne hi with hlt | hgt
  · simp [next, spawn, List.getElem?_append_left hlt]
  · rw [next_length (Nat.le_of_lt hgt), next_length]
    rw [spawn, List.length_append, List.length_singleton]
    exact hgt

theorem next_kill_self {i : ℕ} {t : Thread Ans ε α Req} : (c.kill i t).next i = none := by
  rw [next, kill]
  by_cases hi : i < c.threads.length
  · rw [List.getElem?_set_self hi]
    obtain ⟨_, _ | _, _⟩ := t <;> rfl
  · rw [List.getElem?_eq_none (by simpa using hi)]

theorem next_kill_of_ne {i j : ℕ} (hij : j ≠ i) (t : Thread Ans ε α Req) :
    (c.kill i t).next j = c.next j := by
  simp [next, kill, List.getElem?_set_ne (Ne.symm hij)]

theorem next_answer_of_ne {i j : ℕ} (hij : j ≠ i) (env : Env) (req : Req) (q : Call)
    (k : Except ε (Ans q) → Prog Ans ε α) : (c.answer S i env req q k).next j = c.next j := by
  simp [next, answer, List.getElem?_set_ne (Ne.symm hij)]

theorem next_of_quiescent (hq : c.quiescent = true) (i : ℕ) : c.next i = none := by
  cases hn : c.next i with
  | none => rfl
  | some q =>
    obtain ⟨req, k, ht⟩ := call_of_next hn
    have := List.all_eq_true.mp hq _ (List.mem_of_getElem? ht)
    cases this

/-! ## The requests -/

/-- A step of a thread keeps the requests. -/
theorem map_req_set {i : ℕ} {t t' : Thread Ans ε α Req} (ht : c.threads[i]? = some t)
    (hreq : t'.req = t.req) : (c.threads.set i t').map Thread.req = c.threads.map Thread.req := by
  refine List.ext_getElem? fun j => ?_
  rw [List.getElem?_map, List.getElem?_map, List.getElem?_set]
  split
  · next hij =>
    subst hij
    split
    · rw [ht, Option.map_some, Option.map_some, hreq]
    · next hlt => rw [List.getElem?_eq_none (Nat.not_lt.mp hlt)]
  · rfl

/-- The request thread `i` serves. -/
def reqOf (c : Config Ans ε α σ Req Obs) (i : ℕ) : Option Req := (c.threads[i]?).map Thread.req

theorem reqOf_of_thread {i : ℕ} {t : Thread Ans ε α Req} (ht : c.threads[i]? = some t) :
    c.reqOf i = some t.req := by
  rw [reqOf, ht, Option.map_some]

theorem reqOf_set {i : ℕ} {t t' : Thread Ans ε α Req} (ht : c.threads[i]? = some t)
    (hreq : t'.req = t.req) (j : ℕ) : ((c.threads.set i t')[j]?).map Thread.req = c.reqOf j := by
  rw [← List.getElem?_map, map_req_set ht hreq, List.getElem?_map, reqOf]

theorem reqOf_spawn_self (req : Req) : (c.spawn S req).reqOf c.threads.length = some req := by
  rw [reqOf, spawn, List.getElem?_concat_length, Option.map_some]

theorem reqOf_spawn_of_ne {i : ℕ} (hi : i ≠ c.threads.length) (req : Req) :
    (c.spawn S req).reqOf i = c.reqOf i := by
  rcases Nat.lt_or_gt_of_ne hi with hlt | hgt
  · simp [reqOf, spawn, List.getElem?_append_left hlt]
  · rw [reqOf, reqOf, List.getElem?_eq_none (Nat.le_of_lt hgt), List.getElem?_eq_none]
    rw [spawn, List.length_append, List.length_singleton]
    exact hgt

theorem reqOf_answer {i : ℕ} {env : Env} {req : Req} {q : Call}
    {k : Except ε (Ans q) → Prog Ans ε α} (ht : c.threads[i]? = some ⟨req, .call q k, true⟩)
    (j : ℕ) : (c.answer S i env req q k).reqOf j = c.reqOf j :=
  reqOf_set ht (by rfl) j

theorem reqOf_kill {i : ℕ} {t : Thread Ans ε α Req} (ht : c.threads[i]? = some t) (j : ℕ) :
    (c.kill i t).reqOf j = c.reqOf j :=
  reqOf_set ht (by rfl) j

/-- A thread serves one request. -/
theorem reqOf_step {i : ℕ} {req : Req} (h : c.reqOf i = some req) (a : Action Env Req) :
    (c.step S a).reqOf i = some req := by
  rcases step_cases (S := S) (c := c) a with heq | ⟨req', -, heq⟩ | ⟨j, env, req', q, k, -, ht, heq⟩ |
    ⟨j, t, -, ht, heq⟩
  · rw [heq]
    exact h
  · obtain ⟨t, ht, -⟩ := Option.map_eq_some_iff.mp h
    have hlt : i < c.threads.length := (List.getElem?_eq_some_iff.mp ht).1
    rw [heq, reqOf_spawn_of_ne (Nat.ne_of_lt hlt)]
    exact h
  · rw [heq, reqOf_answer ht]
    exact h
  · rw [heq, reqOf_kill ht]
    exact h

/-- The threads serve the requests that were started, in order. -/
theorem map_req_exec : ∀ {c : Config Ans ε α σ Req Obs} (as : List (Action Env Req)),
    (c.exec S as).threads.map Thread.req =
      c.threads.map Thread.req ++ as.filterMap Action.started
  | _, [] => (List.append_nil _).symm
  | c, a :: as => by
    rw [exec_cons, map_req_exec as]
    cases a with
    | start req => simp [step, spawn, Action.started]
    | run i env =>
      rcases step_cases (S := S) (c := c) (.run i env) with h | ⟨req, h, -⟩ |
        ⟨j, env', req, q, k, -, ht, h⟩ | ⟨j, t, h, -⟩
      · rw [h]
        rfl
      · cases h
      · have hreq : (c.answer S j env' req q k).threads.map Thread.req =
            c.threads.map Thread.req := map_req_set ht rfl
        rw [h, hreq]
        rfl
      · cases h
    | crash i =>
      rcases step_cases (S := S) (c := c) (.crash i) with h | ⟨req, h, -⟩ |
        ⟨j, env, req, q, k, h, -⟩ | ⟨j, t, -, ht, h⟩
      · rw [h]
        rfl
      · cases h
      · cases h
      · have hreq : (c.kill j t).threads.map Thread.req = c.threads.map Thread.req :=
          map_req_set ht rfl
        rw [h, hreq]
        rfl

/-- The result of thread `i`, once it has one. -/
def result? (c : Config Ans ε α σ Req Obs) (i : ℕ) : Option (Except ε α) :=
  match c.threads[i]? with
  | some ⟨_, .ret r, _⟩ => some r
  | _ => none

/-- A thread that has its result is at its end. -/
theorem thread_of_result {i : ℕ} {req : Req} {r : Except ε α} (hreq : c.reqOf i = some req)
    (hr : c.result? i = some r) : ∃ live, c.threads[i]? = some ⟨req, .ret r, live⟩ := by
  unfold result? at hr
  unfold reqOf at hreq
  rcases ht : c.threads[i]? with _ | ⟨req', ⟨r'⟩ | ⟨q, k⟩, live⟩ <;> rw [ht] at hr hreq
  · cases hr
  · cases hr
    cases hreq
    exact ⟨live, rfl⟩
  · cases hr

/-- The request of a thread of a run. -/
theorem reqOf_of_run {s : σ} {as : List (Action Env Req)} {i : ℕ} {req : Req}
    (hreq : (as.filterMap Action.started)[i]? = some req) :
    ((init s).exec S as).reqOf i = some req := by
  rw [reqOf, ← List.getElem?_map, map_req_exec]
  exact hreq

/-- A thread of a run that has its result. -/
theorem thread_of_run {s : σ} {as : List (Action Env Req)} {i : ℕ} {req : Req} {r : Except ε α}
    (hreq : (as.filterMap Action.started)[i]? = some req)
    (hr : ((init s).exec S as).result? i = some r) :
    ∃ live, ((init s).exec S as).threads[i]? = some ⟨req, .ret r, live⟩ :=
  thread_of_result (reqOf_of_run hreq) hr

/-! ## The own logs -/

@[simp] theorem own_spawn (req : Req) (i : ℕ) : (c.spawn S req).own i = c.own i :=
  rfl

@[simp] theorem own_kill (i j : ℕ) (t : Thread Ans ε α Req) : (c.kill i t).own j = c.own j :=
  rfl

theorem own_answer_self (i : ℕ) (env : Env) (req : Req) (q : Call)
    (k : Except ε (Ans q) → Prog Ans ε α) : (c.answer S i env req q k).own i =
      S.observe q c.store (S.exec q env c.store).1 ++ c.own i := by
  simp [own, answer, List.filterMap_append, List.filterMap_map]

theorem own_answer_of_ne {i j : ℕ} (hij : j ≠ i) (env : Env) (req : Req)
    (q : Call) (k : Except ε (Ans q) → Prog Ans ε α) :
    (c.answer S i env req q k).own j = c.own j := by
  simp [own, answer, List.filterMap_append, List.filterMap_map, hij.symm]

theorem mem_own {i : ℕ} {o : Obs} : o ∈ c.own i ↔ (i, o) ∈ c.trace := by
  simp only [own, List.mem_filterMap, Option.ite_none_right_eq_some, Option.some.injEq]
  constructor
  · rintro ⟨⟨j, o'⟩, he, rfl, rfl⟩
    exact he
  · intro he
    exact ⟨(i, o), he, rfl, rfl⟩

/-- What is in the trace after a call was there before or is an observation of the call. -/
theorem mem_trace_answer {i j : ℕ} {env : Env} {req : Req} {q : Call}
    {k : Except ε (Ans q) → Prog Ans ε α} {o : Obs}
    (h : (j, o) ∈ (c.answer S i env req q k).trace) :
    j = i ∧ o ∈ S.observe q c.store (S.exec q env c.store).1 ∨ (j, o) ∈ c.trace := by
  rcases List.mem_append.mp h with h | h
  · obtain ⟨o', ho', heq⟩ := List.mem_map.mp h
    obtain ⟨rfl, rfl⟩ := Prod.mk.inj heq
    exact Or.inl ⟨rfl, ho'⟩
  · exact Or.inr h

theorem mem_trace_of_mem {i : ℕ} {env : Env} {req : Req} {q : Call}
    {k : Except ε (Ans q) → Prog Ans ε α} {e : ℕ × Obs} (h : e ∈ c.trace) :
    e ∈ (c.answer S i env req q k).trace :=
  List.mem_append_right _ h

theorem mem_trace_of_observe {i : ℕ} {env : Env} {req : Req} {q : Call}
    {k : Except ε (Ans q) → Prog Ans ε α} {o : Obs}
    (h : o ∈ S.observe q c.store (S.exec q env c.store).1) :
    (i, o) ∈ (c.answer S i env req q k).trace :=
  List.mem_append_left _ (List.mem_map_of_mem h)

theorem mem_own_of_answer {i j : ℕ} {env : Env} {req : Req} {q : Call}
    {k : Except ε (Ans q) → Prog Ans ε α} {o : Obs} (h : o ∈ (c.answer S i env req q k).own j) :
    j = i ∧ o ∈ S.observe q c.store (S.exec q env c.store).1 ∨ o ∈ c.own j :=
  (mem_trace_answer (mem_own.mp h)).imp_right mem_own.mpr

theorem mem_own_answer {i j : ℕ} {env : Env} {req : Req} {q : Call}
    {k : Except ε (Ans q) → Prog Ans ε α} {o : Obs} (h : o ∈ c.own j) :
    o ∈ (c.answer S i env req q k).own j :=
  mem_own.mpr (mem_trace_of_mem (mem_own.mp h))

/-- A step keeps every log. -/
theorem mem_own_step {j : ℕ} {o : Obs} (h : o ∈ c.own j) (a : Action Env Req) :
    o ∈ (c.step S a).own j := by
  rcases step_cases (S := S) (c := c) a with heq | ⟨req, -, heq⟩ | ⟨i, env, req, q, k, -, -, heq⟩ |
    ⟨i, t, -, -, heq⟩ <;> rw [heq]
  · exact h
  · exact h
  · exact mem_own_answer h
  · exact h

theorem mem_own_exec {j : ℕ} {o : Obs} :
    ∀ {c : Config Ans ε α σ Req Obs} (as : List (Action Env Req)), o ∈ c.own j →
      o ∈ (c.exec S as).own j
  | _, [], h => h
  | _, a :: as, h => by
    rw [exec_cons]
    exact mem_own_exec as (mem_own_step h a)

/-- Counting in the trace what only thread `i` is observed to do. -/
theorem countP_trace {p : Obs → Bool} {i : ℕ} (hp : ∀ e ∈ c.trace, p e.2 = true → e.1 = i) :
    c.trace.countP (fun e => p e.2) = (c.own i).countP p := by
  rw [own, List.countP_filterMap]
  refine List.countP_congr fun e he => ?_
  by_cases hi : e.1 = i
  · simp [hi]
  · have : p e.2 ≠ true := fun h => hi (hp e he h)
    simp [hi, this]

/-! ## Guards in every reached configuration -/

section Conforms

variable (S) (R : σ → Prop) (G : Req → List Obs → Call → Prop)
variable (Q : Req → List Obs → Except ε α → Prop)

/-- An answer the system gives in a store that satisfies `R`. -/
def Answerable (q : Call) (s : σ) (r : Except ε (Ans q)) : Prop :=
  R s ∧ ∃ env, (S.exec q env s).1 = r

/-- The store satisfies `R`, every thread is guarded at its own log, and only started
threads are observed. -/
structure Conforms (c : Config Ans ε α σ Req Obs) : Prop where
  store : R c.store
  guarded : ∀ {i : ℕ} {t : Thread Ans ε α Req}, c.threads[i]? = some t →
    t.prog.Guarded (Answerable S R) S.observe (G t.req) (Q t.req) (c.own i)
  started : ∀ {e : ℕ × Obs}, e ∈ c.trace → e.1 < c.threads.length

variable {S} {R} {G} {Q}

theorem Conforms.own_length {c : Config Ans ε α σ Req Obs} (hc : Conforms S R G Q c) {i : ℕ}
    (hi : c.threads.length ≤ i) : c.own i = [] := by
  refine List.eq_nil_iff_forall_not_mem.mpr fun o ho => ?_
  have := hc.started (mem_own.mp ho)
  exact absurd this (Nat.not_lt.mpr hi)

theorem conforms_init {s : σ} (hs : R s) : Conforms S R G Q (init s) :=
  ⟨hs, fun h => by simp [init] at h, fun h => by simp [init] at h⟩

/-- A new request is guarded at the empty log. -/
theorem Conforms.spawn
    (hG : ∀ req, (S.prog req).Guarded (Answerable S R) S.observe (G req) (Q req) [])
    (hc : Conforms S R G Q c) (req : Req) : Conforms S R G Q (c.spawn S req) := by
  refine ⟨hc.store, fun {i t} ht => ?_, fun he => ?_⟩
  · rw [own_spawn]
    simp only [Config.spawn, List.getElem?_append] at ht
    split at ht
    · exact hc.guarded ht
    · rename_i hi
      rw [hc.own_length (Nat.not_lt.mp hi)]
      rw [List.getElem?_singleton] at ht
      split at ht
      · cases ht
        exact hG req
      · cases ht
  · exact Nat.lt_of_lt_of_le (hc.started he) (by simp [Config.spawn])

/-- A crash keeps the guards. -/
theorem Conforms.kill (hc : Conforms S R G Q c) {i : ℕ} {t : Thread Ans ε α Req}
    (ht : c.threads[i]? = some t) : Conforms S R G Q (c.kill i t) := by
  refine ⟨hc.store, fun {j t'} hj => ?_, fun he => ?_⟩
  · rw [own_kill]
    simp only [Config.kill, List.getElem?_set] at hj
    split at hj
    · rename_i hij
      subst hij
      split at hj
      · obtain rfl := Option.some.inj hj
        have hg := hc.guarded ht
        exact hg
      · cases hj
    · exact hc.guarded hj
  · simpa [Config.kill] using hc.started he

/-- A call keeps the guards. -/
theorem Conforms.answer (hR : ∀ q env s, R s → R (S.exec q env s).2)
    (hc : Conforms S R G Q c) {i : ℕ} {env : Env} {req : Req}
    {q : Call} {k : Except ε (Ans q) → Prog Ans ε α}
    (ht : c.threads[i]? = some ⟨req, .call q k, true⟩) :
    Conforms S R G Q (c.answer S i env req q k) := by
  have hlt : i < c.threads.length := (List.getElem?_eq_some_iff.mp ht).1
  refine ⟨hR _ _ _ hc.store, fun {j t'} hj => ?_, fun {e} he => ?_⟩
  · by_cases hij : j = i
    · subst hij
      simp only [Config.answer, List.getElem?_set_self hlt, Option.some.injEq] at hj
      subst hj
      rw [own_answer_self]
      exact (hc.guarded ht).2 _ _ ⟨hc.store, env, rfl⟩
    · rw [own_answer_of_ne hij]
      simp only [Config.answer, List.getElem?_set_ne (Ne.symm hij)] at hj
      exact hc.guarded hj
  · simp only [Config.answer, List.mem_append, List.mem_map] at he
    simp only [Config.answer, List.length_set]
    rcases he with ⟨o, _, rfl⟩ | he
    · exact hlt
    · exact hc.started he

/-- A step keeps the guards. -/
theorem Conforms.step
    (hG : ∀ req, (S.prog req).Guarded (Answerable S R) S.observe (G req) (Q req) [])
    (hR : ∀ q env s, R s → R (S.exec q env s).2) (hc : Conforms S R G Q c)
    (a : Action Env Req) : Conforms S R G Q (c.step S a) := by
  rcases step_cases (S := S) (c := c) a with h | ⟨req, -, h⟩ | ⟨i, env, req, q, k, -, ht, h⟩ |
    ⟨i, t, -, ht, h⟩
  · rw [h]
    exact hc
  · rw [h]
    exact hc.spawn hG req
  · rw [h]
    exact hc.answer hR ht
  · rw [h]
    exact hc.kill ht

/-- The guard of the next call of a thread. -/
theorem Conforms.guard (hc : Conforms S R G Q c) {i : ℕ} {req : Req} {q : Call}
    {k : Except ε (Ans q) → Prog Ans ε α} {b : Bool}
    (ht : c.threads[i]? = some ⟨req, .call q k, b⟩) : G req (c.own i) q :=
  (hc.guarded ht).1

/-- The postcondition of a thread that returned or threw. -/
theorem Conforms.result (hc : Conforms S R G Q c) {i : ℕ} {req : Req} {r : Except ε α} {b : Bool}
    (ht : c.threads[i]? = some ⟨req, .ret r, b⟩) : Q req (c.own i) r :=
  hc.guarded ht

/-- One step of a run : a property that starting a thread, answering a guarded call and
crashing a thread preserve is preserved by a step that meets `A`. -/
theorem step_invariant {A : Config Ans ε α σ Req Obs → Action Env Req → Prop}
    {I : Config Ans ε α σ Req Obs → Prop}
    (hspawn : ∀ {c req}, Conforms S R G Q c → I c → A c (.start req) → I (c.spawn S req))
    (hanswer : ∀ {c i env req} {q : Call} {k : Except ε (Ans q) → Prog Ans ε α},
      Conforms S R G Q c → I c → A c (.run i env) →
      c.threads[i]? = some ⟨req, .call q k, true⟩ → G req (c.own i) q →
      I (c.answer S i env req q k))
    (hkill : ∀ {c i t}, Conforms S R G Q c → I c → A c (.crash i) → c.threads[i]? = some t →
      I (c.kill i t)) {a : Action Env Req} (hc : Conforms S R G Q c) (hI : I c) (hA : A c a) :
    I (c.step S a) := by
  rcases step_cases (S := S) (c := c) a with h | ⟨req, rfl, h⟩ |
    ⟨i, env, req, q, k, rfl, ht, h⟩ | ⟨i, t, rfl, ht, h⟩
  · rw [h]
    exact hI
  · rw [h]
    exact hspawn hc hI hA
  · rw [h]
    exact hanswer hc hI hA ht (hc.guard ht)
  · rw [h]
    exact hkill hc hI hA ht

/-- The invariant rule : a property that holds at first, and that starting a thread,
answering a guarded call and crashing a thread preserve, holds after every run whose
steps meet `A`. -/
theorem run_invariant {A : Config Ans ε α σ Req Obs → Action Env Req → Prop}
    {I : Config Ans ε α σ Req Obs → Prop}
    (hG : ∀ req, (S.prog req).Guarded (Answerable S R) S.observe (G req) (Q req) [])
    (hR : ∀ q env s, R s → R (S.exec q env s).2)
    (hspawn : ∀ {c req}, Conforms S R G Q c → I c → A c (.start req) → I (c.spawn S req))
    (hanswer : ∀ {c i env req} {q : Call} {k : Except ε (Ans q) → Prog Ans ε α},
      Conforms S R G Q c → I c → A c (.run i env) →
      c.threads[i]? = some ⟨req, .call q k, true⟩ → G req (c.own i) q →
      I (c.answer S i env req q k))
    (hkill : ∀ {c i t}, Conforms S R G Q c → I c → A c (.crash i) → c.threads[i]? = some t →
      I (c.kill i t)) :
    ∀ {c : Config Ans ε α σ Req Obs} (as : List (Action Env Req)), Conforms S R G Q c → I c →
      Along S A c as → Conforms S R G Q (c.exec S as) ∧ I (c.exec S as)
  | _, [], hc, hI, _ => ⟨hc, hI⟩
  | c, a :: as, hc, hI, hA => by
    rw [exec_cons]
    exact run_invariant hG hR hspawn hanswer hkill as (hc.step hG hR a)
      (step_invariant hspawn hanswer hkill hc hI hA.1) hA.2

/-- The steps of such a run : what each gives with the invariant. -/
theorem run_along {A B : Config Ans ε α σ Req Obs → Action Env Req → Prop}
    {I : Config Ans ε α σ Req Obs → Prop}
    (hG : ∀ req, (S.prog req).Guarded (Answerable S R) S.observe (G req) (Q req) [])
    (hR : ∀ q env s, R s → R (S.exec q env s).2)
    (hspawn : ∀ {c req}, Conforms S R G Q c → I c → A c (.start req) → I (c.spawn S req))
    (hanswer : ∀ {c i env req} {q : Call} {k : Except ε (Ans q) → Prog Ans ε α},
      Conforms S R G Q c → I c → A c (.run i env) →
      c.threads[i]? = some ⟨req, .call q k, true⟩ → G req (c.own i) q →
      I (c.answer S i env req q k))
    (hkill : ∀ {c i t}, Conforms S R G Q c → I c → A c (.crash i) → c.threads[i]? = some t →
      I (c.kill i t)) (hB : ∀ {c a}, Conforms S R G Q c → I c → A c a → B c a) :
    ∀ {c : Config Ans ε α σ Req Obs} {as : List (Action Env Req)}, Conforms S R G Q c → I c →
      Along S A c as → Along S B c as
  | _, [], _, _, _ => trivial
  | _, _ :: _, hc, hI, hA =>
    ⟨hB hc hI hA.1, run_along hG hR hspawn hanswer hkill hB (hc.step hG hR _)
      (step_invariant hspawn hanswer hkill hc hI hA.1) hA.2⟩

end Conforms

end Config

end Async
