import SailsProtocol.Async.Pool

/-!
# The result of a request among others

Between two calls of a program other requests change the store. `Prog.Ends` is the
weakest precondition of a program on the store it shares : the others change the store
by `R` only, every call is answered in an environment that satisfies `N`, and the result
fits the store the program ends in. The rules for `bind`, `tryCatch` and single calls
compute it along the program text, as those of `Guarded` do over the own log.

`Config.result_of_exec` is the run : when every call of the system changes the store by
`R`, a thread whose own calls were answered in environments of `N` has a result of its
request, whatever the other threads met.
-/

namespace Async

variable {Call : Type} {Ans : Call → Type} {ε α β σ Env Req Obs : Type}

namespace Prog

/-- The program ends with a result that satisfies `Q`, when its calls are answered in
environments of `N` and the store changes by `R` before each of them. -/
def Ends (exec : ∀ c : Call, Env → σ → Except ε (Ans c) × σ) (R : σ → σ → Prop)
    (N : Env → Prop) (Q : σ → Except ε α → Prop) : Prog Ans ε α → σ → Prop
  | ret r, s => Q s r
  | call c k, s => ∀ s', R s s' → ∀ env, N env →
      (k (exec c env s').1).Ends exec R N Q (exec c env s').2

section Rules

variable {exec : ∀ c : Call, Env → σ → Except ε (Ans c) × σ} {R : σ → σ → Prop}
variable {N : Env → Prop} {Q : σ → Except ε α → Prop} {s s' : σ}

/-- Returning a value. -/
@[simp] theorem ends_pure (a : α) :
    (pure a : Prog Ans ε α).Ends exec R N Q s ↔ Q s (.ok a) :=
  Iff.rfl

/-- A single call : its answer fits, whatever the others did before it. -/
@[simp] theorem ends_perform (c : Call) {Q : σ → Except ε (Ans c) → Prop} :
    (perform c : Prog Ans ε (Ans c)).Ends exec R N Q s ↔
      ∀ s', R s s' → ∀ env, N env → Q (exec c env s').2 (exec c env s').1 :=
  Iff.rfl

/-- Sequencing : the rest of the program is the postcondition of the first part. -/
@[simp] theorem ends_bind {P : σ → Except ε β → Prop} (f : α → Prog Ans ε β) :
    ∀ (p : Prog Ans ε α) (s : σ), (p >>= f).Ends exec R N P s ↔
      p.Ends exec R N (fun s' r => match r with
        | .ok a => (f a).Ends exec R N P s'
        | .error e => P s' (.error e)) s
  | ret (.ok _), _ => Iff.rfl
  | ret (.error _), _ => Iff.rfl
  | call _ k, _ => forall_congr' fun _ => forall_congr' fun _ => forall_congr' fun _ =>
      forall_congr' fun _ => ends_bind f (k _) _

/-- A handler : the errors of the first part continue in the handler. -/
@[simp] theorem ends_tryCatch (f : ε → Prog Ans ε α) : ∀ (p : Prog Ans ε α) (s : σ),
    (p.tryCatch f).Ends exec R N Q s ↔
      p.Ends exec R N (fun s' r => match r with
        | .ok a => Q s' (.ok a)
        | .error e => (f e).Ends exec R N Q s') s
  | ret (.ok _), _ => Iff.rfl
  | ret (.error _), _ => Iff.rfl
  | call _ k, _ => forall_congr' fun _ => forall_congr' fun _ => forall_congr' fun _ =>
      forall_congr' fun _ => ends_tryCatch f (k _) _

/-- What the others do before the next call is one of the changes the program meets. -/
theorem Ends.rely [IsTrans σ R] (hQ : ∀ {s s' : σ} {r}, R s s' → Q s r → Q s' r) (h : R s s') :
    ∀ {p : Prog Ans ε α}, p.Ends exec R N Q s → p.Ends exec R N Q s'
  | ret _, hp => hQ h hp
  | call _ _, hp => fun s'' h' => hp s'' (Trans.trans h h')

end Rules

end Prog

namespace Config

variable {S : System Ans ε α σ Env Req Obs} {R : σ → σ → Prop} {N : Env → Prop}
variable {Q : Req → Except ε α → Prop} {c : Config Ans ε α σ Req Obs} {i : ℕ}

/-- Thread `i`, once it is started, ends with a result of its request. -/
def Ends (S : System Ans ε α σ Env Req Obs) (R : σ → σ → Prop) (N : Env → Prop)
    (Q : Req → Except ε α → Prop) (i : ℕ) (c : Config Ans ε α σ Req Obs) : Prop :=
  ∀ t, c.threads[i]? = some t → t.prog.Ends S.exec R N (fun _ r => Q t.req r) c.store

/-- One step : the thread's own call is answered in an environment of `N`, and the calls of
the other threads change the store by `R`. -/
theorem Ends.step [Std.Refl R] [IsTrans σ R] (hexec : ∀ q env s, R s (S.exec q env s).2)
    (hprog : ∀ req s, (S.prog req).Ends S.exec R N (fun _ r => Q req r) s)
    {a : Action Env Req} (hN : ∀ env, a = .run i env → N env) (h : c.Ends S R N Q i) :
    (c.step S a).Ends S R N Q i := by
  intro t ht
  rcases step_cases (S := S) (c := c) a with heq | ⟨req, -, heq⟩ |
    ⟨j, env, req, q, k, rfl, hj, heq⟩ | ⟨j, t', -, hj, heq⟩
  · rw [heq] at ht ⊢
    exact h t ht
  · rw [heq] at ht ⊢
    simp only [spawn, List.getElem?_append] at ht
    split at ht
    · exact h t ht
    · rw [List.getElem?_singleton] at ht
      split at ht
      · obtain rfl := Option.some.inj ht
        exact hprog req c.store
      · cases ht
  · rw [heq] at ht ⊢
    by_cases hij : j = i
    · subst hij
      have hlt : j < c.threads.length := (List.getElem?_eq_some_iff.mp hj).1
      rw [answer, List.getElem?_set_self hlt] at ht
      obtain rfl := Option.some.inj ht
      exact h _ hj c.store (Std.Refl.refl _) env (hN env rfl)
    · rw [answer, List.getElem?_set_ne hij] at ht
      exact (h t ht).rely (fun _ hQ => hQ) (hexec q env c.store)
  · rw [heq] at ht ⊢
    by_cases hij : j = i
    · subst hij
      have hlt : j < c.threads.length := (List.getElem?_eq_some_iff.mp hj).1
      rw [kill, List.getElem?_set_self hlt] at ht
      obtain rfl := Option.some.inj ht
      exact h t' hj
    · rw [kill, List.getElem?_set_ne hij] at ht
      exact h t ht

/-- A run in which the calls of thread `i` are answered in environments of `N`. -/
theorem Ends.exec [Std.Refl R] [IsTrans σ R] (hexec : ∀ q env s, R s (S.exec q env s).2)
    (hprog : ∀ req s, (S.prog req).Ends S.exec R N (fun _ r => Q req r) s) :
    ∀ {c : Config Ans ε α σ Req Obs} {as : List (Action Env Req)},
      (∀ env, .run i env ∈ as → N env) → c.Ends S R N Q i → (c.exec S as).Ends S R N Q i
  | _, [], _, h => h
  | c, a :: as, hN, h => by
    rw [exec_cons]
    refine Ends.exec hexec hprog (fun env henv => hN env (List.mem_cons_of_mem a henv))
      (h.step hexec hprog fun env heq => hN env ?_)
    rw [heq]
    exact List.mem_cons_self

/-- The result of a thread whose calls were answered in environments of `N`. -/
theorem result_of_exec [Std.Refl R] [IsTrans σ R] (hexec : ∀ q env s, R s (S.exec q env s).2)
    (hprog : ∀ req s, (S.prog req).Ends S.exec R N (fun _ r => Q req r) s) {s : σ}
    {as : List (Action Env Req)} (hN : ∀ env, .run i env ∈ as → N env) {req : Req}
    {r : Except ε α} {live : Bool}
    (ht : ((init s).exec S as).threads[i]? = some ⟨req, .ret r, live⟩) : Q req r := by
  have hinit : (init s : Config Ans ε α σ Req Obs).Ends S R N Q i := fun t ht => by
    simp [init] at ht
  exact Ends.exec hexec hprog hN hinit _ ht

end Config

end Async
