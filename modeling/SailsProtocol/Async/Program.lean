import Mathlib.Data.List.Basic

/-!
# Programs that await their calls

An `async` function of a server is a sequence of calls to a database, a provider or
an event bus. It waits for each answer, an answer may be an error, and between two
calls any other request may run.

`Prog Ans ε α` is such a function as data : it returns a value, throws an error, or
makes one call and goes on with the answer. `Prog.bind` is `await` followed by the
rest of the function, and `Prog.tryCatch` is `try` with its `catch`. A call is never
part of a program's own state, so the points between two calls are exactly the points
at which other requests can interleave.

`Prog.Guarded` is the weakest precondition of a program over its own log of
observations : every call is allowed at the log it is made with, and the final result
fits the final log. The rules for `bind`, `tryCatch` and single calls (`guarded_bind`,
`guarded_tryCatch`, `guarded_perform`) compute it along the program text.
-/

namespace Async

variable {Call : Type} {Ans : Call → Type} {ε α β Obs : Type}

/-! ## Programs -/

/-- A program over the calls `Call`, answered in `Ans` : a result, or a call and what
follows its answer. -/
inductive Prog {Call : Type} (Ans : Call → Type) (ε α : Type) : Type
  | ret (r : Except ε α)
  | call (c : Call) (k : Except ε (Ans c) → Prog Ans ε α)

namespace Prog

/-- Run `f` on the value of `p`; an error of `p` ends the program. -/
def bind : Prog Ans ε α → (α → Prog Ans ε β) → Prog Ans ε β
  | ret (.ok a), f => f a
  | ret (.error e), _ => ret (.error e)
  | call c k, f => call c fun r => (k r).bind f

/-- Run `f` on the error of `p`; a value of `p` is returned as it is. -/
def tryCatch : Prog Ans ε α → (ε → Prog Ans ε α) → Prog Ans ε α
  | ret (.ok a), _ => ret (.ok a)
  | ret (.error e), f => f e
  | call c k, f => call c fun r => (k r).tryCatch f

/-- The program that makes one call and returns its answer. -/
def perform (c : Call) : Prog Ans ε (Ans c) :=
  call c ret

instance : Monad (Prog Ans ε) where
  pure a := ret (.ok a)
  bind := bind

instance : MonadExceptOf ε (Prog Ans ε) where
  throw e := ret (.error e)
  tryCatch := tryCatch

/-- Throw `e` unless `b` holds. -/
def require (b : Bool) (e : ε) : Prog Ans ε Unit :=
  bif b then pure () else throw e

/-- Throw `e` when there is no value. -/
def orThrow (x : Option α) (e : ε) : Prog Ans ε α :=
  match x with
  | some a => pure a
  | none => throw e

/-- Run `p` when `b` holds. -/
def when (b : Bool) (p : Prog Ans ε Unit) : Prog Ans ε Unit :=
  bif b then p else pure ()

/-- Run `f` on the value, if there is one. -/
def forSome (x : Option α) (f : α → Prog Ans ε Unit) : Prog Ans ε Unit :=
  match x with
  | some a => f a
  | none => pure ()

/-- Run `f` on the values of a list, one after the other. -/
def forEach : List α → (α → Prog Ans ε Unit) → Prog Ans ε Unit
  | [], _ => pure ()
  | a :: l, f => do
    f a
    forEach l f

/-- Ignore the errors of `p`. -/
def swallow (p : Prog Ans ε Unit) : Prog Ans ε Unit :=
  p.tryCatch fun _ => pure ()

/-- Run a program alone on a store, from its first call to its result. -/
def runAlone {σ : Type} (exec : ∀ c : Call, σ → Except ε (Ans c) × σ) :
    Prog Ans ε α → σ → Except ε α × σ
  | ret r, s => (r, s)
  | call c k, s => (k (exec c s).1).runAlone exec (exec c s).2

section Alone

variable {σ : Type} {exec : ∀ c : Call, σ → Except ε (Ans c) × σ}

@[simp] theorem runAlone_pure (a : α) (s : σ) :
    (pure a : Prog Ans ε α).runAlone exec s = (.ok a, s) :=
  rfl

@[simp] theorem runAlone_perform (c : Call) (s : σ) :
    (perform c : Prog Ans ε (Ans c)).runAlone exec s = exec c s :=
  rfl

@[simp] theorem runAlone_bind (f : α → Prog Ans ε β) : ∀ (p : Prog Ans ε α) (s : σ),
    (p >>= f).runAlone exec s = match p.runAlone exec s with
      | (.ok a, s') => (f a).runAlone exec s'
      | (.error e, s') => (.error e, s')
  | ret (.ok _), _ => rfl
  | ret (.error _), _ => rfl
  | call c k, s => runAlone_bind f (k (exec c s).1) (exec c s).2

@[simp] theorem runAlone_require (b : Bool) (e : ε) (s : σ) :
    (require b e : Prog Ans ε Unit).runAlone exec s =
      (if b = true then .ok () else .error e, s) := by
  cases b <;> rfl

end Alone

/-! ## Weakest preconditions over the own log -/

/-- Every call of the program satisfies `G` at the log it is made with, and the result
satisfies `Q` at the final log. An answered call adds its observations to the log. The
answer may be any answer `can` allows in some store `σ`. -/
def Guarded {σ : Type} (can : ∀ c : Call, σ → Except ε (Ans c) → Prop)
    (observe : ∀ c : Call, σ → Except ε (Ans c) → List Obs)
    (G : List Obs → Call → Prop) (Q : List Obs → Except ε α → Prop) :
    Prog Ans ε α → List Obs → Prop
  | ret r, h => Q h r
  | call c k, h => G h c ∧ ∀ s r, can c s r → (k r).Guarded can observe G Q (observe c s r ++ h)

section Rules

variable {σ : Type} {can : ∀ c : Call, σ → Except ε (Ans c) → Prop}
variable {observe : ∀ c : Call, σ → Except ε (Ans c) → List Obs}
variable {G : List Obs → Call → Prop}
variable {Q Q' : List Obs → Except ε α → Prop} {h : List Obs}

/-- A result is guarded when it fits the log. -/
@[simp] theorem guarded_ret (r : Except ε α) :
    (ret r : Prog Ans ε α).Guarded can observe G Q h ↔ Q h r :=
  Iff.rfl

/-- Returning a value. -/
@[simp] theorem guarded_pure (a : α) :
    (pure a : Prog Ans ε α).Guarded can observe G Q h ↔ Q h (.ok a) :=
  Iff.rfl

/-- Throwing an error. -/
@[simp] theorem guarded_throw (e : ε) :
    (throw e : Prog Ans ε α).Guarded can observe G Q h ↔ Q h (.error e) :=
  Iff.rfl

/-- A single call : it is allowed, and every possible answer fits the extended log. -/
@[simp] theorem guarded_perform (c : Call) {Q : List Obs → Except ε (Ans c) → Prop} :
    (perform c : Prog Ans ε (Ans c)).Guarded can observe G Q h ↔
      G h c ∧ ∀ s r, can c s r → Q (observe c s r ++ h) r :=
  Iff.rfl

/-- Weakening the postcondition. -/
theorem Guarded.mono (hQ : ∀ h r, Q h r → Q' h r) :
    ∀ {p : Prog Ans ε α} {h : List Obs}, p.Guarded can observe G Q h →
      p.Guarded can observe G Q' h
  | ret _, _, hp => hQ _ _ hp
  | call _ _, _, hp => ⟨hp.1, fun s r hr => (hp.2 s r hr).mono hQ⟩

/-- Weakening the guard. -/
theorem Guarded.imp {G' : List Obs → Call → Prop} (hG : ∀ h c, G h c → G' h c) :
    ∀ {p : Prog Ans ε α} {h : List Obs}, p.Guarded can observe G Q h →
      p.Guarded can observe G' Q h
  | ret _, _, hp => hp
  | call _ _, _, hp => ⟨hG _ _ hp.1, fun s r hr => (hp.2 s r hr).imp hG⟩

/-- Two guards at once. -/
theorem Guarded.and {G' : List Obs → Call → Prop} :
    ∀ {p : Prog Ans ε α} {h : List Obs}, p.Guarded can observe G Q h →
      p.Guarded can observe G' Q' h →
      p.Guarded can observe (fun h c => G h c ∧ G' h c) (fun h r => Q h r ∧ Q' h r) h
  | ret _, _, hp, hp' => ⟨hp, hp'⟩
  | call _ _, _, hp, hp' => ⟨⟨hp.1, hp'.1⟩, fun s r hr => (hp.2 s r hr).and (hp'.2 s r hr)⟩

/-- Guards that hold of every call and every result. -/
theorem guarded_of_forall (hG : ∀ h c, G h c) (hQ : ∀ h r, Q h r) :
    ∀ (p : Prog Ans ε α) (h : List Obs), p.Guarded can observe G Q h
  | ret _, _ => hQ _ _
  | call _ k, _ => ⟨hG _ _, fun _ r _ => guarded_of_forall hG hQ (k r) _⟩

/-- The log only grows. -/
theorem Guarded.suffix : ∀ {p : Prog Ans ε α} {h : List Obs}, p.Guarded can observe G Q h →
    p.Guarded can observe G (fun h' r => h <:+ h' ∧ Q h' r) h
  | ret _, _, hp => ⟨List.suffix_rfl, hp⟩
  | call _ _, _, hp => ⟨hp.1, fun s r hr => (hp.2 s r hr).suffix.mono fun _ _ hq =>
      ⟨(List.suffix_append _ _).trans hq.1, hq.2⟩⟩

/-- Sequencing : the rest of the program is the postcondition of the first part. -/
@[simp] theorem guarded_bind {R : List Obs → Except ε β → Prop} (f : α → Prog Ans ε β) :
    ∀ (p : Prog Ans ε α) (h : List Obs), (p >>= f).Guarded can observe G R h ↔
      p.Guarded can observe G (fun h' r => match r with
        | .ok a => (f a).Guarded can observe G R h'
        | .error e => R h' (.error e)) h
  | ret (.ok _), _ => Iff.rfl
  | ret (.error _), _ => Iff.rfl
  | call _ k, _ => and_congr_right fun _ =>
      forall_congr' fun _ => forall_congr' fun r => forall_congr' fun _ => guarded_bind f (k r) _

/-- A handler : the errors of the first part continue in the handler. -/
@[simp] theorem guarded_tryCatch (f : ε → Prog Ans ε α) :
    ∀ (p : Prog Ans ε α) (h : List Obs),
      (p.tryCatch f).Guarded can observe G Q h ↔
      p.Guarded can observe G (fun h' r => match r with
        | .ok a => Q h' (.ok a)
        | .error e => (f e).Guarded can observe G Q h') h
  | ret (.ok _), _ => Iff.rfl
  | ret (.error _), _ => Iff.rfl
  | call _ k, _ => and_congr_right fun _ =>
      forall_congr' fun _ => forall_congr' fun r => forall_congr' fun _ => guarded_tryCatch f (k r) _

@[simp] theorem guarded_require {Q : List Obs → Except ε Unit → Prop} (b : Bool) (e : ε) :
    (require b e : Prog Ans ε Unit).Guarded can observe G Q h ↔
      (b = true → Q h (.ok ())) ∧ (b = false → Q h (.error e)) := by
  cases b <;> simp [require]

@[simp] theorem guarded_orThrow (x : Option α) (e : ε) :
    (orThrow x e : Prog Ans ε α).Guarded can observe G Q h ↔
      (∀ a, x = some a → Q h (.ok a)) ∧ (x = none → Q h (.error e)) := by
  cases x <;> simp [orThrow]

@[simp] theorem guarded_when {Q : List Obs → Except ε Unit → Prop} (b : Bool)
    (p : Prog Ans ε Unit) : (when b p).Guarded can observe G Q h ↔
      (b = true → p.Guarded can observe G Q h) ∧ (b = false → Q h (.ok ())) := by
  cases b <;> simp [when]

@[simp] theorem guarded_forSome {Q : List Obs → Except ε Unit → Prop} (x : Option α)
    (f : α → Prog Ans ε Unit) : (forSome x f).Guarded can observe G Q h ↔
      (∀ a, x = some a → (f a).Guarded can observe G Q h) ∧ (x = none → Q h (.ok ())) := by
  cases x <;> simp [forSome]

/-- A loop : the body keeps the invariant `I`, and an error of the body ends the loop. -/
theorem guarded_forEach {Q : List Obs → Except ε Unit → Prop} {I : List Obs → Prop}
    {f : α → Prog Ans ε Unit} (hdone : ∀ h, I h → Q h (.ok ())) :
    ∀ (l : List α) {h : List Obs}, (∀ a ∈ l, ∀ h, I h → (f a).Guarded can observe G
      (fun h' r => match r with
        | .ok _ => I h'
        | .error e => Q h' (.error e)) h) → I h → (forEach l f).Guarded can observe G Q h
  | [], _, _, hI => hdone _ hI
  | a :: l, _, hbody, hI => by
    refine (guarded_bind _ _ _).mpr ((hbody a List.mem_cons_self _ hI).mono fun h' r hr => ?_)
    cases r with
    | ok _ => exact guarded_forEach hdone l (fun b hb => hbody b (List.mem_cons_of_mem a hb)) hr
    | error e => exact hr

@[simp] theorem guarded_ite (c : Prop) [Decidable c] (p q : Prog Ans ε α) :
    (if c then p else q).Guarded can observe G Q h ↔
      (c → p.Guarded can observe G Q h) ∧ (¬ c → q.Guarded can observe G Q h) := by
  by_cases hc : c <;> simp [hc]

@[simp] theorem guarded_swallow {Q : List Obs → Except ε Unit → Prop} :
    ∀ (p : Prog Ans ε Unit) (h : List Obs), (swallow p).Guarded can observe G Q h ↔
      p.Guarded can observe G (fun h' _ => Q h' (.ok ())) h
  | ret (.ok _), _ => Iff.rfl
  | ret (.error _), _ => Iff.rfl
  | call _ k, _ => and_congr_right fun _ =>
      forall_congr' fun _ => forall_congr' fun r => forall_congr' fun _ => guarded_swallow (k r) _

/-! ### Programs whose result does not matter -/

/-- Every call of the program satisfies `G`, whatever the program returns. -/
abbrev Calls (can : ∀ c : Call, σ → Except ε (Ans c) → Prop)
    (observe : ∀ c : Call, σ → Except ε (Ans c) → List Obs) (G : List Obs → Call → Prop)
    (p : Prog Ans ε α) (h : List Obs) : Prop :=
  p.Guarded can observe G (fun _ _ => True) h

/-- A program whose continuation meets its guards. -/
theorem Calls.bind {p : Prog Ans ε α} {f : α → Prog Ans ε β}
    (hp : p.Guarded can observe G
      (fun h r => ∀ a, r = .ok a → (f a).Calls can observe G h) h) :
    (p >>= f).Calls can observe G h := by
  refine (guarded_bind f p h).mpr (hp.mono fun h' r hr => ?_)
  cases r with
  | error e => trivial
  | ok a => exact hr a rfl

theorem Calls.then {p : Prog Ans ε α} {f : α → Prog Ans ε β} (hp : p.Calls can observe G h)
    (hf : ∀ a h, (f a).Calls can observe G h) : (p >>= f).Calls can observe G h :=
  Calls.bind (hp.mono fun h' _ _ a _ => hf a h')

theorem calls_perform {c : Call} (hG : G h c) :
    (perform c : Prog Ans ε (Ans c)).Calls can observe G h :=
  ⟨hG, fun _ _ _ => trivial⟩

theorem calls_require (b : Bool) (e : ε) : (require b e : Prog Ans ε Unit).Calls can observe G h :=
  (guarded_require b e).mpr ⟨fun _ => trivial, fun _ => trivial⟩

theorem Calls.perform_bind {c : Call} {f : Ans c → Prog Ans ε β} (hG : G h c)
    (hf : ∀ s a, can c s (.ok a) → (f a).Calls can observe G (observe c s (.ok a) ++ h)) :
    (perform c >>= f).Calls can observe G h := by
  refine Calls.bind ⟨hG, fun s r hr a ha => ?_⟩
  subst ha
  exact hf s a hr

theorem Calls.require_bind {b : Bool} {e : ε} {f : Unit → Prog Ans ε β}
    (hf : b = true → (f ()).Calls can observe G h) :
    (require b e >>= f).Calls can observe G h :=
  Calls.bind ((guarded_require b e).mpr ⟨fun hb _ _ => hf hb, fun _ _ h => by cases h⟩)

theorem Calls.orThrow_bind {x : Option α} {e : ε} {f : α → Prog Ans ε β}
    (hf : ∀ a, x = some a → (f a).Calls can observe G h) :
    (orThrow x e >>= f).Calls can observe G h := by
  refine Calls.bind ((guarded_orThrow x e).mpr ⟨fun a ha b hb => ?_, fun _ _ h => by cases h⟩)
  cases hb
  exact hf a ha

theorem Calls.tryCatch {p : Prog Ans ε α} {f : ε → Prog Ans ε α} (hp : p.Calls can observe G h)
    (hf : ∀ e h, (f e).Calls can observe G h) : (p.tryCatch f).Calls can observe G h := by
  refine (guarded_tryCatch f p h).mpr (hp.mono fun h' r _ => ?_)
  cases r with
  | error e => exact hf e h'
  | ok a => trivial

end Rules

/-! ## The calls of a program -/

/-- Every call the program can make satisfies `N`. -/
def Makes (N : Call → Prop) : Prog Ans ε α → Prop
  | ret _ => True
  | call c k => N c ∧ ∀ r, (k r).Makes N

section Makes

variable {N : Call → Prop}

theorem makes_ret (r : Except ε α) : (ret r : Prog Ans ε α).Makes N :=
  trivial

theorem makes_pure (a : α) : (pure a : Prog Ans ε α).Makes N :=
  trivial

theorem makes_throw (e : ε) : (throw e : Prog Ans ε α).Makes N :=
  trivial

theorem makes_perform {c : Call} (h : N c) : (perform c : Prog Ans ε (Ans c)).Makes N :=
  ⟨h, fun _ => trivial⟩

theorem Makes.bind {f : α → Prog Ans ε β} (hf : ∀ a, (f a).Makes N) :
    ∀ {p : Prog Ans ε α}, p.Makes N → (p >>= f).Makes N
  | ret (.ok a), _ => hf a
  | ret (.error _), _ => trivial
  | call _ _, hp => ⟨hp.1, fun r => Makes.bind hf (hp.2 r)⟩

theorem Makes.and {M : Call → Prop} : ∀ {p : Prog Ans ε α}, p.Makes N → p.Makes M →
    p.Makes fun c => N c ∧ M c
  | ret _, _, _ => trivial
  | call _ _, hN, hM => ⟨⟨hN.1, hM.1⟩, fun r => (hN.2 r).and (hM.2 r)⟩

theorem Makes.tryCatch {f : ε → Prog Ans ε α} (hf : ∀ e, (f e).Makes N) :
    ∀ {p : Prog Ans ε α}, p.Makes N → (p.tryCatch f).Makes N
  | ret (.ok _), _ => trivial
  | ret (.error e), _ => hf e
  | call _ _, hp => ⟨hp.1, fun r => Makes.tryCatch hf (hp.2 r)⟩

theorem Makes.swallow {p : Prog Ans ε Unit} (hp : p.Makes N) : p.swallow.Makes N :=
  Makes.tryCatch (fun _ => makes_pure ()) hp

theorem makes_require (b : Bool) (e : ε) : (require b e : Prog Ans ε Unit).Makes N := by
  cases b <;> trivial

theorem makes_orThrow (x : Option α) (e : ε) : (orThrow x e : Prog Ans ε α).Makes N := by
  cases x <;> trivial

theorem Makes.when {p : Prog Ans ε Unit} (hp : p.Makes N) (b : Bool) : (when b p).Makes N := by
  cases b
  · trivial
  · exact hp

theorem makes_forSome {x : Option α} {f : α → Prog Ans ε Unit} (hf : ∀ a, (f a).Makes N) :
    (forSome x f).Makes N := by
  cases x
  · trivial
  · exact hf _

theorem makes_forEach {f : α → Prog Ans ε Unit} (hf : ∀ a, (f a).Makes N) :
    ∀ l : List α, (forEach l f).Makes N
  | [] => trivial
  | a :: l => Makes.bind (fun _ => makes_forEach hf l) (hf a)

theorem Makes.ite {c : Prop} [Decidable c] {p q : Prog Ans ε α} (hp : p.Makes N)
    (hq : q.Makes N) : (if c then p else q).Makes N := by
  by_cases hc : c
  · simpa [hc] using hp
  · simpa [hc] using hq

/-- A guard that every call of the program meets at any log. -/
theorem Makes.calls {σ : Type} {can : ∀ c : Call, σ → Except ε (Ans c) → Prop}
    {observe : ∀ c : Call, σ → Except ε (Ans c) → List Obs} {G : List Obs → Call → Prop}
    (hG : ∀ c h, N c → G h c) :
    ∀ {p : Prog Ans ε α} {h : List Obs}, p.Makes N → p.Calls can observe G h
  | ret _, _, _ => trivial
  | call _ _, h, hp => ⟨hG _ h hp.1, fun _ r _ => (hp.2 r).calls hG⟩

/-- Calls whose observations are all of one kind add only such observations to the log. -/
theorem Makes.adds {σ : Type} {can : ∀ c : Call, σ → Except ε (Ans c) → Prop}
    {observe : ∀ c : Call, σ → Except ε (Ans c) → List Obs} {P : Obs → Prop} {log : List Obs}
    (hO : ∀ c s r, N c → ∀ o ∈ observe c s r, P o) :
    ∀ {p : Prog Ans ε α} {new : List Obs}, p.Makes N → (∀ o ∈ new, P o) →
      p.Guarded can observe (fun h c => N c ∧ ∃ new, h = new ++ log ∧ ∀ o ∈ new, P o)
        (fun h _ => ∃ new, h = new ++ log ∧ ∀ o ∈ new, P o) (new ++ log)
  | ret _, new, _, hnew => ⟨new, rfl, hnew⟩
  | call c _, new, hp, hnew => ⟨⟨hp.1, new, rfl, hnew⟩, fun s r _ => by
      rw [← List.append_assoc]
      refine (hp.2 r).adds hO fun o ho => ?_
      rcases List.mem_append.mp ho with ho | ho
      · exact hO c s r hp.1 o ho
      · exact hnew o ho⟩

/-- Calls that are not observed leave the log as it is. -/
theorem Makes.silent {σ : Type} {can : ∀ c : Call, σ → Except ε (Ans c) → Prop}
    {observe : ∀ c : Call, σ → Except ε (Ans c) → List Obs} {G : List Obs → Call → Prop}
    (hG : ∀ c h, N c → G h c) (hO : ∀ c s r, N c → observe c s r = []) :
    ∀ {p : Prog Ans ε α} {h : List Obs}, p.Makes N →
      p.Guarded can observe G (fun h' _ => h' = h) h
  | ret _, _, _ => rfl
  | call c _, h, hp => ⟨hG _ h hp.1, fun s r _ => by
      rw [hO c s r hp.1, List.nil_append]
      exact (hp.2 r).silent hG hO⟩

end Makes

end Prog

end Async
