import SailsProtocol.Async.Pool

/-!
# A request that runs alone

When nothing comes between the calls of a request, its thread ends with the result of its
program run alone, and the store is the one the program leaves (`exec_serve`). `Prog.Short`
bounds the calls a program makes, so that so many steps of the thread are enough.
-/

namespace Async

variable {Call : Type} {Ans : Call → Type} {ε α β σ Env Req Obs : Type}

namespace Prog

/-- The program makes at most `n` calls. -/
def Short : ℕ → Prog Ans ε α → Prop
  | _, ret _ => True
  | 0, call _ _ => False
  | n + 1, call _ k => ∀ r, (k r).Short n

theorem short_ret (n : ℕ) (r : Except ε α) : (ret r : Prog Ans ε α).Short n := by
  cases n <;> trivial

theorem short_pure (n : ℕ) (a : α) : (pure a : Prog Ans ε α).Short n :=
  short_ret n _

theorem short_throw (n : ℕ) (e : ε) : (throw e : Prog Ans ε α).Short n :=
  short_ret n _

theorem short_perform (n : ℕ) (c : Call) : (perform c : Prog Ans ε (Ans c)).Short (n + 1) :=
  fun r => short_ret n r

theorem Short.mono : ∀ {m n : ℕ} {p : Prog Ans ε α}, m ≤ n → p.Short m → p.Short n
  | _, n, ret r, _, _ => short_ret n r
  | _ + 1, _ + 1, call _ _, hmn, hp => fun r => Short.mono (Nat.le_of_succ_le_succ hmn) (hp r)

theorem Short.bind {n : ℕ} {f : α → Prog Ans ε β} (hf : ∀ a, (f a).Short n) :
    ∀ {m : ℕ} {p : Prog Ans ε α}, p.Short m → (p >>= f).Short (n + m)
  | m, ret (.ok a), _ => (hf a).mono (Nat.le_add_right n m)
  | m, ret (.error e), _ => short_ret (n + m) (.error e)
  | _ + 1, call _ _, hp => fun r => Short.bind hf (hp r)

theorem Short.tryCatch {n : ℕ} {f : ε → Prog Ans ε α} (hf : ∀ e, (f e).Short n) :
    ∀ {m : ℕ} {p : Prog Ans ε α}, p.Short m → (p.tryCatch f).Short (n + m)
  | m, ret (.ok a), _ => short_ret (n + m) (.ok a)
  | m, ret (.error e), _ => (hf e).mono (Nat.le_add_right n m)
  | _ + 1, call _ _, hp => fun r => Short.tryCatch hf (hp r)

theorem short_require (n : ℕ) (b : Bool) (e : ε) :
    (require b e : Prog Ans ε Unit).Short n := by
  cases b <;> exact short_ret n _

theorem short_orThrow (n : ℕ) (x : Option α) (e : ε) :
    (orThrow x e : Prog Ans ε α).Short n := by
  cases x <;> exact short_ret n _

/-- The first call of a program that runs alone. -/
theorem runAlone_perform_bind {exec : ∀ c : Call, σ → Except ε (Ans c) × σ} {c : Call} {s s' : σ}
    {a : Ans c} (hrun : exec c s = (.ok a, s')) (f : Ans c → Prog Ans ε β) :
    (perform c >>= f).runAlone exec s = (f a).runAlone exec s' := by
  rw [runAlone_bind, runAlone_perform, hrun]

end Prog

namespace Config

variable {S : System Ans ε α σ Env Req Obs} {c : Config Ans ε α σ Req Obs}

/-- The steps of a request that is started as thread `i` and makes at most `n` calls, with
nothing between them. -/
def serve (i : ℕ) (req : Req) (n : ℕ) (env : Env) : List (Action Env Req) :=
  .start req :: List.replicate n (.run i env)

theorem eq_of_mem_serve {i j n : ℕ} {req : Req} {env env' : Env}
    (h : .run j env' ∈ serve i req n env) : j = i ∧ env' = env := by
  rcases List.mem_cons.mp h with heq | hmem
  · cases heq
  · obtain ⟨rfl, rfl⟩ := Action.run.inj (List.eq_of_mem_replicate hmem)
    exact ⟨rfl, rfl⟩

/-- A served request is the only one that is started. -/
@[simp] theorem started_serve (i n : ℕ) (req : Req) (env : Env) :
    (serve i req n env).filterMap Action.started = [req] := by
  have hcalls : (List.replicate n (.run i env : Action Env Req)).filterMap Action.started = [] :=
    List.filterMap_replicate_of_none rfl
  rw [serve, List.filterMap_cons, hcalls]
  rfl

/-- What the start and every call of a request meet. -/
theorem along_serve {A : Config Ans ε α σ Req Obs → Action Env Req → Prop} {i n : ℕ} {req : Req}
    {env : Env} (hi : c.threads.length = i) (hstart : A c (.start req))
    (hcall : ∀ c' : Config Ans ε α σ Req Obs, c'.reqOf i = some req → A c' (.run i env)) :
    Along S A c (serve i req n env) := by
  subst hi
  have hreplicate : ∀ (n : ℕ) (c' : Config Ans ε α σ Req Obs),
      c'.reqOf c.threads.length = some req →
      Along S A c' (List.replicate n (.run c.threads.length env)) := by
    intro n
    induction n with
    | zero => exact fun _ _ => trivial
    | succ n ih => exact fun c' hreq => ⟨hcall c' hreq, ih _ (reqOf_step hreq _)⟩
  exact ⟨hstart, hreplicate n _ (reqOf_spawn_self req)⟩

/-- So many steps of the last thread run its program to the end. -/
theorem exec_runs (env : Env) (req : Req) (l : List (Thread Ans ε α Req)) :
    ∀ {n : ℕ} {p : Prog Ans ε α} (s : σ) (trace : List (ℕ × Obs)), p.Short n →
      ∃ trace', (⟨s, l ++ [⟨req, p, true⟩], trace⟩ : Config Ans ε α σ Req Obs).exec S
          (List.replicate n (.run l.length env)) =
        ⟨(p.runAlone (fun q => S.exec q env) s).2,
          l ++ [⟨req, .ret (p.runAlone (fun q => S.exec q env) s).1, true⟩], trace'⟩
  | 0, .ret r, s, trace, _ => ⟨trace, rfl⟩
  | n + 1, .ret r, s, trace, _ => by
    obtain ⟨trace', ih⟩ := exec_runs env req l (n := n) s trace
      (Prog.short_ret n r)
    refine ⟨trace', ?_⟩
    rw [List.replicate_succ, exec_cons]
    simp only [step, List.getElem?_concat_length]
    exact ih
  | n + 1, .call q k, s, trace, hp => by
    obtain ⟨trace', ih⟩ := exec_runs env req l (S.exec q env s).2
      ((S.observe q s (S.exec q env s).1).map (Prod.mk l.length) ++ trace)
      (hp (S.exec q env s).1)
    refine ⟨trace', ?_⟩
    rw [List.replicate_succ, exec_cons]
    simp only [step, List.getElem?_concat_length, answer, List.set_append_right _ _ (Nat.le_refl _),
      Nat.sub_self, List.set_cons_zero]
    exact ih

/-- A short request that runs alone ends with the result of its program. -/
theorem exec_serve {i n : ℕ} {req : Req} (env : Env) (hi : c.threads.length = i)
    (hshort : (S.prog req).Short n) {r : Except ε α} {s : σ}
    (hrun : (S.prog req).runAlone (fun q => S.exec q env) c.store = (r, s)) :
    (c.exec S (serve i req n env)).store = s ∧
      (c.exec S (serve i req n env)).threads = c.threads ++ [⟨req, .ret r, true⟩] := by
  subst hi
  obtain ⟨trace, heq⟩ := exec_runs (S := S) env req c.threads c.store c.trace
    hshort
  have hserve : c.exec S (serve c.threads.length req n env) =
      ⟨s, c.threads ++ [⟨req, .ret r, true⟩], trace⟩ := by
    rw [hrun] at heq
    exact heq
  rw [hserve]
  exact ⟨rfl, rfl⟩

end Config

end Async
