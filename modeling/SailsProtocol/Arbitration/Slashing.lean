import SailsProtocol.Async.Pool
import SailsProtocol.Numeric.Doubles

/-!
# Collateral of an arbiter

An arbiter posts collateral with `register`, which creates the profile or adds to it, and
loses half of it with `slash` when a ruling is overturned (`market-arbitration.provider.ts`).
A top-up is an increment of the column. A slash reads the column, computes in doubles and
writes the result back, and its event says what was forfeited.

`collateral_conserved` : in a run in which a slash writes over the collateral that it read,
an even number of units below `2 ^ 53`, and in which no acknowledgement of a write and no
event is lost, the collateral is what was deposited less what was forfeited.
`top_up_overwritten` is a top-up between the read and the write of a slash.
-/

namespace Sails.Arbitration.Slashing

open Async Async.Prog Async.Config Numeric

/-! ## The profile -/

/-- The columns that `register` and `slash` read and write, collateral in units of the eighth
decimal place. -/
structure ArbiterProfile where
  monetaryCollateral : ℤ
  collateralAsset : Option String
  arbiterReputation : ℤ
  rulingsOverturned : ℕ
  deriving DecidableEq, Repr

/-- A column of 24 digits, eight of them after the point. -/
def fitsColumn (units : ℤ) : Bool := |units| < 10 ^ 24

namespace ArbiterProfile

variable (profile : ArbiterProfile)

/-- The collateral in whole coins, as a double. -/
def currentCollateral : ℚ := toDouble (profile.monetaryCollateral / 10 ^ 8)

/-- `SLASH_COLLATERAL_FRACTION` is a half. -/
def forfeited : ℚ := toDouble (profile.currentCollateral * (1 / 2))

/-- `forfeited.toFixed(8)`. -/
def forfeitedCollateral : ℤ := toFixed (profile.forfeited * 10 ^ 8)

/-- `(currentCollateral - forfeited).toFixed(8)`. -/
def newCollateral : ℤ :=
  toFixed (toDouble (profile.currentCollateral - profile.forfeited) * 10 ^ 8)

/-- `OVERTURNED_PENALTY` is minus ten. -/
def newReputation : ℤ := max 0 (profile.arbiterReputation + -10)

end ArbiterProfile

/-! ## Calls -/

/-- What `register` and `slash` await. -/
inductive Call where
  | findUnique
  | create (monetaryCollateral : ℤ) (collateralAsset : Option String)
  /-- The `update` of `register`, which increments the collateral. -/
  | topUp (monetaryCollateral : ℤ) (collateralAsset : Option String)
  /-- The `update` of `slash`. -/
  | updateSlashed (monetaryCollateral arbiterReputation : ℤ)
  | emitSlashed (forfeitedCollateral newCollateral newReputation : ℤ)
  deriving DecidableEq, Repr

/-- What each call returns. -/
abbrev Call.Ans : Call → Type
  | .findUnique => Option ArbiterProfile
  | .create _ _ | .topUp _ _ | .updateSlashed _ _ => ArbiterProfile
  | .emitSlashed _ _ _ => Unit

/-- What they throw. -/
inductive StakeError where
  | fault
  | uniqueConstraint
  | columnOverflow
  | recordNotFound
  | noArbiterProfile
  deriving DecidableEq, Repr

/-- Half of what is in the column always fits it. -/
def Call.run : (q : Call) → Option ArbiterProfile →
    Except StakeError q.Ans × Option ArbiterProfile
  | .findUnique, s => (.ok s, s)
  | .create _ _, some profile => (.error .uniqueConstraint, some profile)
  | .create monetaryCollateral collateralAsset, none =>
    if fitsColumn monetaryCollateral then
      (.ok ⟨monetaryCollateral, collateralAsset, 0, 0⟩,
        some ⟨monetaryCollateral, collateralAsset, 0, 0⟩)
    else (.error .columnOverflow, none)
  | .topUp _ _, none => (.error .recordNotFound, none)
  | .topUp monetaryCollateral collateralAsset, some profile =>
    let updated := { profile with
      monetaryCollateral := profile.monetaryCollateral + monetaryCollateral
      collateralAsset := collateralAsset.or profile.collateralAsset }
    if fitsColumn updated.monetaryCollateral then (.ok updated, some updated)
    else (.error .columnOverflow, some profile)
  | .updateSlashed _ _, none => (.error .recordNotFound, none)
  | .updateSlashed monetaryCollateral arbiterReputation, some profile =>
    let updated := { profile with
      monetaryCollateral := monetaryCollateral
      arbiterReputation := arbiterReputation
      rulingsOverturned := profile.rulingsOverturned + 1 }
    (.ok updated, some updated)
  | .emitSlashed _ _ _, s => (.ok (), s)

/-- A call under the fate the environment gives it. -/
def Call.exec (q : Call) (fate : Fate) (s : Option ArbiterProfile) :
    Except StakeError q.Ans × Option ArbiterProfile :=
  fate.settle .fault (q.run s) s

/-! ## Operations -/

/-- A program over these calls. -/
abbrev Op := Prog Call.Ans StakeError

/-- One call, as a program. -/
def await (q : Call) : Op q.Ans := perform q

/-- `register`. -/
def register (monetaryCollateral : ℤ) (collateralAsset : Option String) : Op ArbiterProfile := do
  let existing : Option ArbiterProfile ← await .findUnique
  match existing with
  | some profile => await (.topUp monetaryCollateral (collateralAsset.or profile.collateralAsset))
  | none => await (.create monetaryCollateral collateralAsset)

/-- `slash`. -/
def slash : Op ArbiterProfile := do
  let existing : Option ArbiterProfile ← await .findUnique
  match existing with
  | none => throw .noArbiterProfile
  | some profile => do
    let updated : ArbiterProfile ←
      await (.updateSlashed profile.newCollateral profile.newReputation)
    await (.emitSlashed profile.forfeitedCollateral profile.newCollateral profile.newReputation)
    return updated

/-- What can be asked about the profile. -/
inductive Req where
  | register (monetaryCollateral : ℤ) (collateralAsset : Option String)
  | slash
  deriving DecidableEq, Repr

/-- What is observed of an acknowledged call. -/
inductive Obs where
  | read (existing : Option ArbiterProfile)
  /-- The last call of a `register`. -/
  | deposited (monetaryCollateral : ℤ)
  /-- A slash wrote, and this was in force. -/
  | tookEffect (inForce : ArbiterProfile)
  /-- The last call of a `slash`. -/
  | forfeited (forfeitedCollateral : ℤ)
  | unpublished
  deriving DecidableEq, Repr

/-- What a call tells about the collateral. -/
def Call.observe : (q : Call) → Option ArbiterProfile → Except StakeError q.Ans → List Obs
  | .findUnique, _, .ok existing => [.read existing]
  | .create monetaryCollateral _, _, .ok _ => [.deposited monetaryCollateral]
  | .topUp monetaryCollateral _, _, .ok _ => [.deposited monetaryCollateral]
  | .updateSlashed _ _, some profile, .ok _ => [.tookEffect profile]
  | .emitSlashed forfeitedCollateral _ _, _, .ok _ => [.forfeited forfeitedCollateral]
  | .emitSlashed _ _ _, _, .error _ => [.unpublished]
  | _, _, _ => []

/-- One arbiter, with the registrations and slashes of it. -/
def staking : System Call.Ans StakeError ArbiterProfile (Option ArbiterProfile) Fate Req Obs where
  exec := Call.exec
  observe := Call.observe
  prog
    | .register monetaryCollateral collateralAsset => register monetaryCollateral collateralAsset
    | .slash => slash

/-- The profile and the requests about it. -/
abbrev Stake := Config Call.Ans StakeError ArbiterProfile (Option ArbiterProfile) Req Obs

/-! ## Conservation -/

/-- A deposit, or a forfeiture that counts one slash. -/
def Obs.entry : Obs → ℤ × ℤ
  | .deposited monetaryCollateral => (monetaryCollateral, 0)
  | .forfeited forfeitedCollateral => (-forfeitedCollateral, 1)
  | _ => 0

/-- What a profile holds, and how often it was slashed. -/
def heldBy : Option ArbiterProfile → ℤ × ℤ
  | some profile => (profile.monetaryCollateral, profile.rulingsOverturned)
  | none => 0

namespace Stake

variable (c : Stake)

/-- The two amounts that the profile holds. -/
def held : ℤ × ℤ := heldBy c.store

/-- The deposits of the calls that returned less what those that returned forfeited, and the
number of these slashes. -/
def booked : ℤ × ℤ := (c.trace.map fun e => e.2.entry).sum

end Stake

/-- What is conserved in a run. -/
structure Conserved (c : Stake) : Prop where
  /-- When no call is under way, the profile holds what was booked. -/
  balance : c.quiescent = true → Stake.held c = Stake.booked c
  /-- A slash forfeits half of the collateral in force, to eight decimal places. -/
  halves : ∀ i forfeitedCollateral, .forfeited forfeitedCollateral ∈ c.own i →
    ∃ inForce : ArbiterProfile, .tookEffect inForce ∈ c.own i ∧
      forfeitedCollateral = toFixed (inForce.monetaryCollateral / 2)
  nonneg : ∀ profile, c.store = some profile →
    0 ≤ profile.monetaryCollateral ∧ 0 ≤ profile.arbiterReputation

/-- A slash may write over this profile : it has the collateral that was read, an even number
of units that doubles hold exactly. -/
def Halvable (inForce read : ArbiterProfile) : Prop :=
  inForce.monetaryCollateral = read.monetaryCollateral ∧ Even inForce.monetaryCollateral ∧
    inForce.monetaryCollateral < 2 ^ 53

/-- Deposits are not negative, a slash writes over what it read, and after a write neither its
acknowledgement nor its event is lost. -/
def Orderly (c : Stake) : Action Fate Req → Prop
  | .start (.register monetaryCollateral _) => 0 ≤ monetaryCollateral
  | .start .slash => True
  | .run i fate =>
    match c.next i with
    | some (.create _ _) | some (.topUp _ _) => fate ≠ .lost
    | some (.updateSlashed _ _) => fate ≠ .lost ∧ ∀ inForce, c.store = some inForce →
        ∀ read, .read (some read) ∈ c.own i → Halvable inForce read
    | some (.emitSlashed _ _ _) => fate = .answered
    | _ => True
  | .crash i => ∀ f n r, c.next i ≠ some (.emitSlashed f n r)

/-! ## Halves in doubles -/

theorem toFixed_of_near {y : ℚ} {n : ℤ} (hy : 0 ≤ y) (h : |y - n| < 1 / 2) : toFixed y = n := by
  rw [toFixed, if_pos hy]
  simp only [halfUp]
  rw [Int.floor_eq_iff]
  rw [abs_lt] at h
  constructor <;> linarith

section Halves

variable {profile : ArbiterProfile} {n : ℤ}

theorem forfeited_eq (h : 0 ≤ profile.monetaryCollateral) :
    profile.forfeited = profile.currentCollateral / 2 := by
  rw [ArbiterProfile.forfeited, mul_one_div]
  exact toDouble_half (by positivity)

theorem newCollateral_eq (h : 0 ≤ profile.monetaryCollateral) :
    profile.newCollateral = profile.forfeitedCollateral := by
  have hhalf : toDouble (profile.currentCollateral / 2) = profile.currentCollateral / 2 :=
    toDouble_half (by positivity)
  rw [ArbiterProfile.newCollateral, ArbiterProfile.forfeitedCollateral, forfeited_eq h, sub_half,
    hhalf]

/-- An even number of units that doubles hold is halved exactly. -/
theorem forfeitedCollateral_eq (hn : 0 ≤ n) (hlt : 2 * n < 2 ^ 53)
    (h : profile.monetaryCollateral = 2 * n) : profile.forfeitedCollateral = n := by
  have hnonneg : (0 : ℚ) ≤ profile.monetaryCollateral / 10 ^ 8 := by
    rw [h]
    positivity
  have herror := abs_toDouble_sub_le hnonneg
  rw [ArbiterProfile.forfeitedCollateral, forfeited_eq (by omega)]
  refine toFixed_of_near ?_ ?_
  · have := toDouble_nonneg hnonneg
    rw [ArbiterProfile.currentCollateral]
    positivity
  · have hunits : (profile.monetaryCollateral : ℚ) = 2 * n := by exact_mod_cast h
    have hbound : (n : ℚ) < 2 ^ 52 := by
      have : 2 * n < 2 * 2 ^ 52 := by omega
      exact_mod_cast (by omega : n < 2 ^ 52)
    rw [ArbiterProfile.currentCollateral]
    rw [hunits] at herror ⊢
    rw [abs_le] at herror
    rw [abs_lt]
    constructor <;> linarith [herror.1, herror.2]

end Halves

/-! ## What a thread is about to do -/

/-- Which call follows which observations. -/
def Guard (req : Req) (h : List Obs) : Call → Prop
  | .findUnique => h = []
  | .create monetaryCollateral _ => (∃ asset, req = .register monetaryCollateral asset) ∧
      ∃ existing, h = [.read existing]
  | .topUp monetaryCollateral _ => (∃ asset, req = .register monetaryCollateral asset) ∧
      ∃ existing, h = [.read existing]
  | .updateSlashed monetaryCollateral arbiterReputation => ∃ profile : ArbiterProfile,
      h = [.read (some profile)] ∧ monetaryCollateral = profile.newCollateral ∧
        arbiterReputation = profile.newReputation
  | .emitSlashed forfeitedCollateral _ _ => ∃ inForce profile : ArbiterProfile,
      h = [.tookEffect inForce, .read (some profile)] ∧
        forfeitedCollateral = profile.forfeitedCollateral

/-- A slash that took effect is published or was refused. -/
def Post (h : List Obs) : Prop :=
  ∀ inForce profile, h ≠ [.tookEffect inForce, .read (some profile)]

/-- A slash takes effect on a profile. -/
theorem inForce_of_ok {s : Option ArbiterProfile} {monetaryCollateral arbiterReputation : ℤ}
    {updated : ArbiterProfile} (h : ∃ fate,
      ((Call.updateSlashed monetaryCollateral arbiterReputation).exec fate s).1 = .ok updated) :
    ∃ inForce, s = some inForce := by
  obtain ⟨fate, h⟩ := h
  cases s with
  | some inForce => exact ⟨inForce, rfl⟩
  | none => cases fate <;> cases h

/-- Every call of a request meets its guard. -/
theorem prog_guarded (req : Req) : (staking.prog req).Guarded (Answerable staking fun _ => True)
    staking.observe (Guard req) (fun h _ => Post h) [] := by
  cases req with
  | register monetaryCollateral collateralAsset =>
    refine (guarded_bind _ _ _).mpr ⟨rfl, fun s r _ => ?_⟩
    rcases r with e | existing | profile
    · exact nofun
    · refine ⟨⟨⟨_, rfl⟩, _, rfl⟩, fun s r _ => ?_⟩
      rcases r with e | created
      · exact nofun
      · exact nofun
    · refine ⟨⟨⟨_, rfl⟩, _, rfl⟩, fun s r _ => ?_⟩
      rcases r with e | updated
      · exact nofun
      · exact nofun
  | slash =>
    refine (guarded_bind _ _ _).mpr ⟨rfl, fun s r _ => ?_⟩
    rcases r with e | existing | profile
    · exact nofun
    · exact nofun
    · refine (guarded_bind _ _ _).mpr ⟨⟨profile, rfl, rfl, rfl⟩, fun s r hr => ?_⟩
      rcases r with e | updated
      · cases s <;> exact nofun
      · obtain ⟨inForce, rfl⟩ := inForce_of_ok hr.2
        refine (guarded_bind _ _ _).mpr ⟨⟨inForce, profile, rfl, rfl⟩, fun s r _ => ?_⟩
        rcases r with e | u
        · exact nofun
        · exact nofun

/-! ## Every run -/

/-- What a thread has taken from the profile and not yet published. -/
def owed (t : Thread Call.Ans StakeError ArbiterProfile Req) : ℤ × ℤ :=
  match t with
  | ⟨_, .call (.emitSlashed forfeitedCollateral _ _) _, true⟩ => (-forfeitedCollateral, 1)
  | _ => 0

/-- What the open calls have booked and not yet written, or the other way round. -/
def Stake.owing (c : Stake) : ℤ × ℤ := (c.threads.map owed).sum

/-- What the log of a thread owes. -/
def owedLog : List Obs → ℤ × ℤ
  | [.tookEffect _, .read (some profile)] => (-profile.forfeitedCollateral, 1)
  | _ => 0

/-- Every thread is guarded at what it has seen. -/
abbrev Stake.Conforms (c : Stake) : Prop :=
  Config.Conforms staking (fun _ => True) Guard (fun _ h _ => Post h) c

/-- A live thread owes what its log says. -/
theorem owed_eq {c : Stake} (hc : Stake.Conforms c) {i : ℕ} {req : Req}
    {p : Prog Call.Ans StakeError ArbiterProfile} (ht : c.threads[i]? = some ⟨req, p, true⟩) :
    owed ⟨req, p, true⟩ = owedLog (c.own i) := by
  cases p with
  | ret r =>
    have hpost : Post (c.own i) := hc.result ht
    have hlog : owedLog (c.own i) = 0 := by
      unfold owedLog
      split
      · next inForce profile heq => exact absurd heq (hpost inForce profile)
      · rfl
    rw [hlog]
    rfl
  | call q k =>
    have hguard := hc.guard ht
    cases q with
    | findUnique =>
      rw [show c.own i = [] from hguard]
      rfl
    | create monetaryCollateral collateralAsset =>
      obtain ⟨-, existing, hlog⟩ := hguard
      rw [hlog]
      rfl
    | topUp monetaryCollateral collateralAsset =>
      obtain ⟨-, existing, hlog⟩ := hguard
      rw [hlog]
      rfl
    | updateSlashed monetaryCollateral arbiterReputation =>
      obtain ⟨profile, hlog, -⟩ := hguard
      rw [hlog]
      rfl
    | emitSlashed forfeitedCollateral newCollateral newReputation =>
      obtain ⟨inForce, profile, hlog, rfl⟩ := hguard
      rw [hlog]
      rfl

theorem owing_set {c : Stake} {i : ℕ} {t t' : Thread Call.Ans StakeError ArbiterProfile Req}
    (ht : c.threads[i]? = some t) :
    ((c.threads.set i t').map owed).sum = Stake.owing c - owed t + owed t' := by
  obtain ⟨hi, hget⟩ := List.getElem?_eq_some_iff.mp ht
  have hlen : i < (c.threads.map owed).length := by simpa using hi
  rw [List.map_set, List.sum_set', dif_pos hlen, List.getElem_map, hget, Stake.owing]
  abel

/-- When no call is under way nothing is owed. -/
theorem owing_of_quiescent {c : Stake} (hq : c.quiescent = true) : Stake.owing c = 0 := by
  refine List.sum_eq_zero fun x hx => ?_
  obtain ⟨t, ht, rfl⟩ := List.mem_map.mp hx
  have hidle := List.all_eq_true.mp hq t ht
  obtain ⟨req, _ | ⟨q, k⟩, _ | _⟩ := t
  · rfl
  · rfl
  · cases q <;> rfl
  · cases hidle

/-- What holds of every orderly run. -/
structure Balanced (c : Stake) : Prop where
  balance : Stake.held c = Stake.booked c + Stake.owing c
  nonneg : ∀ profile, c.store = some profile →
    0 ≤ profile.monetaryCollateral ∧ 0 ≤ profile.arbiterReputation
  deposits : ∀ t ∈ c.threads, ∀ monetaryCollateral asset,
    t.req = .register monetaryCollateral asset → 0 ≤ monetaryCollateral
  halvable : ∀ i inForce profile, .tookEffect inForce ∈ c.own i →
    .read (some profile) ∈ c.own i → 0 ≤ inForce.monetaryCollateral ∧ Halvable inForce profile
  halves : ∀ i forfeitedCollateral, .forfeited forfeitedCollateral ∈ c.own i →
    ∃ inForce : ArbiterProfile, .tookEffect inForce ∈ c.own i ∧
      forfeitedCollateral = toFixed (inForce.monetaryCollateral / 2)

section Answer

variable {c : Stake} {i : ℕ} {fate : Fate} {req : Req} {q : Call}
variable {k : Except StakeError q.Ans → Prog Call.Ans StakeError ArbiterProfile}

/-- A call keeps the balance when it books or owes what it changes in the profile. -/
theorem balance_answer (hc : Stake.Conforms c)
    (ht : c.threads[i]? = some ⟨req, .call q k, true⟩)
    (hbalance : Stake.held c = Stake.booked c + Stake.owing c)
    (hcall : heldBy (q.exec fate c.store).2 + owedLog (c.own i) = heldBy c.store +
      ((q.observe c.store (q.exec fate c.store).1).map Obs.entry).sum +
      owedLog (q.observe c.store (q.exec fate c.store).1 ++ c.own i)) :
    Stake.held (c.answer staking i fate req q k) =
      Stake.booked (c.answer staking i fate req q k) +
        Stake.owing (c.answer staking i fate req q k) := by
  have hc' : Stake.Conforms (c.answer staking i fate req q k) :=
    hc.answer (fun _ _ _ _ => trivial) ht
  have hlt : i < c.threads.length := (List.getElem?_eq_some_iff.mp ht).1
  have ht' : (c.answer staking i fate req q k).threads[i]? =
      some ⟨req, k (q.exec fate c.store).1, true⟩ := by
    simp [Config.answer, staking, hlt]
  have howing : Stake.owing (c.answer staking i fate req q k) =
      Stake.owing c - owedLog (c.own i) +
        owedLog (q.observe c.store (q.exec fate c.store).1 ++ c.own i) := by
    have hown : (c.answer staking i fate req q k).own i =
        q.observe c.store (q.exec fate c.store).1 ++ c.own i := own_answer_self i fate req q k
    rw [← owed_eq hc ht, ← hown, ← owed_eq hc' ht']
    exact owing_set ht
  have hbooked : Stake.booked (c.answer staking i fate req q k) =
      ((q.observe c.store (q.exec fate c.store).1).map Obs.entry).sum + Stake.booked c := by
    rw [Stake.booked, Stake.booked]
    simp [Config.answer, staking, Function.comp_def]
  have hheld : Stake.held (c.answer staking i fate req q k) = heldBy (q.exec fate c.store).2 := rfl
  rw [show heldBy c.store = _ from hbalance] at hcall
  rw [hheld, hbooked, howing, ← sub_eq_zero]
  rw [← sub_eq_zero] at hcall
  rw [← hcall]
  abel

/-- What one call gives for the invariant besides the balance. -/
theorem Balanced.answer (hc : Stake.Conforms c) (h : Balanced c)
    (ht : c.threads[i]? = some ⟨req, .call q k, true⟩)
    (hcall : heldBy (q.exec fate c.store).2 + owedLog (c.own i) = heldBy c.store +
      ((q.observe c.store (q.exec fate c.store).1).map Obs.entry).sum +
      owedLog (q.observe c.store (q.exec fate c.store).1 ++ c.own i))
    (hnonneg : ∀ profile, (q.exec fate c.store).2 = some profile →
      0 ≤ profile.monetaryCollateral ∧ 0 ≤ profile.arbiterReputation)
    (hhalvable : ∀ inForce profile,
      .tookEffect inForce ∈ q.observe c.store (q.exec fate c.store).1 ++ c.own i →
      .read (some profile) ∈ q.observe c.store (q.exec fate c.store).1 ++ c.own i →
      0 ≤ inForce.monetaryCollateral ∧ Halvable inForce profile)
    (hhalves : ∀ f, .forfeited f ∈ q.observe c.store (q.exec fate c.store).1 →
      ∃ inForce : ArbiterProfile, .tookEffect inForce ∈ c.own i ∧
        f = toFixed (inForce.monetaryCollateral / 2)) :
    Balanced (c.answer staking i fate req q k) where
  balance := balance_answer hc ht h.balance hcall
  nonneg := hnonneg
  deposits t' ht' monetaryCollateral asset hreq := by
    rcases List.mem_or_eq_of_mem_set ht' with hold | rfl
    · exact h.deposits t' hold monetaryCollateral asset hreq
    · exact h.deposits _ (List.mem_of_getElem? ht) monetaryCollateral asset hreq
  halvable j inForce profile htook hread := by
    by_cases hij : j = i
    · subst hij
      rw [own_answer_self] at htook hread
      exact hhalvable inForce profile htook hread
    · rw [own_answer_of_ne hij] at htook hread
      exact h.halvable j inForce profile htook hread
  halves j f hf := by
    by_cases hij : j = i
    · subst hij
      rw [own_answer_self] at hf ⊢
      rcases List.mem_append.mp hf with hnew | hold
      · obtain ⟨inForce, htook, heq⟩ := hhalves f hnew
        exact ⟨inForce, List.mem_append_right _ htook, heq⟩
      · obtain ⟨inForce, htook, heq⟩ := h.halves j f hold
        exact ⟨inForce, List.mem_append_right _ htook, heq⟩
    · rw [own_answer_of_ne hij] at hf ⊢
      exact h.halves j f hf

/-- A call that leaves the profile and observes nothing of it. -/
theorem Balanced.unchanged (hc : Stake.Conforms c) (h : Balanced c)
    (ht : c.threads[i]? = some ⟨req, .call q k, true⟩) (hstore : (q.exec fate c.store).2 = c.store)
    (hobs : q.observe c.store (q.exec fate c.store).1 = []) :
    Balanced (c.answer staking i fate req q k) := by
  refine h.answer hc ht ?_ ?_ ?_ ?_
  · rw [hstore, hobs]
    simp
  · rw [hstore]
    exact h.nonneg
  · rw [hobs]
    exact h.halvable i
  · rw [hobs]
    nofun

end Answer

section Calls

variable {c : Stake} {i : ℕ} {fate : Fate} {req : Req}

/-- A read keeps the balance. -/
theorem Balanced.findUnique
    {k : Except StakeError (Option ArbiterProfile) → Prog Call.Ans StakeError ArbiterProfile}
    (hc : Stake.Conforms c) (h : Balanced c)
    (ht : c.threads[i]? = some ⟨req, .call .findUnique k, true⟩) :
    Balanced (c.answer staking i fate req .findUnique k) := by
  have hlog : c.own i = [] := hc.guard ht
  cases fate with
  | answered =>
    refine h.answer hc ht ?_ h.nonneg ?_ nofun
    · rw [hlog]
      simp [Call.exec, Fate.settle, Call.run, Call.observe, owedLog, Obs.entry]
    · rw [hlog]
      simp [Call.exec, Fate.settle, Call.run, Call.observe]
  | failed => exact h.unchanged hc ht rfl rfl
  | lost => exact h.unchanged hc ht rfl rfl

/-- A deposit that is acknowledged is booked. -/
theorem Balanced.deposit {q : Call}
    {k : Except StakeError q.Ans → Prog Call.Ans StakeError ArbiterProfile} {deposit : ℤ}
    (profile : ArbiterProfile) (hc : Stake.Conforms c) (h : Balanced c)
    (ht : c.threads[i]? = some ⟨req, .call q k, true⟩)
    (hlog : ∃ existing, c.own i = [.read existing]) (hnonneg : 0 ≤ deposit)
    (hstore : (q.exec fate c.store).2 = some profile)
    (hobs : q.observe c.store (q.exec fate c.store).1 = [.deposited deposit])
    (hheld : heldBy (some profile) = heldBy c.store + (deposit, 0))
    (hreputation : 0 ≤ profile.arbiterReputation) :
    Balanced (c.answer staking i fate req q k) := by
  obtain ⟨existing, hlog⟩ := hlog
  refine h.answer hc ht ?_ ?_ ?_ ?_
  · rw [hstore, hobs, hlog, hheld]
    simp [owedLog, Obs.entry]
  · rw [hstore]
    rintro _ ⟨⟩
    refine ⟨?_, hreputation⟩
    have hfirst := congrArg Prod.fst hheld
    cases hbefore : c.store with
    | none =>
      rw [hbefore] at hfirst
      simp only [heldBy, Prod.fst_add, Prod.fst_zero] at hfirst
      omega
    | some before =>
      rw [hbefore] at hfirst
      have := (h.nonneg before hbefore).1
      simp only [heldBy, Prod.fst_add] at hfirst
      omega
  · rw [hobs, hlog]
    simp
  · rw [hobs]
    simp

/-- A new profile keeps the balance. -/
theorem Balanced.create {monetaryCollateral : ℤ} {collateralAsset : Option String}
    {k : Except StakeError ArbiterProfile → Prog Call.Ans StakeError ArbiterProfile}
    (hc : Stake.Conforms c) (h : Balanced c) (hfate : fate ≠ .lost)
    (ht : c.threads[i]? =
      some ⟨req, .call (.create monetaryCollateral collateralAsset) k, true⟩) :
    Balanced (c.answer staking i fate req (.create monetaryCollateral collateralAsset) k) := by
  obtain ⟨⟨asset, hreq⟩, hlog⟩ := hc.guard ht
  have hnonneg := h.deposits _ (List.mem_of_getElem? ht) _ _ hreq
  cases fate with
  | failed => exact h.unchanged hc ht rfl rfl
  | lost => exact absurd rfl hfate
  | answered =>
    cases hstore : c.store with
    | some profile =>
      refine h.unchanged hc ht ?_ ?_ <;>
        simp [Call.exec, Fate.settle, Call.run, Call.observe, hstore]
    | none =>
      by_cases hfits : fitsColumn monetaryCollateral = true
      · refine h.deposit ⟨monetaryCollateral, collateralAsset, 0, 0⟩ hc ht hlog hnonneg
          ?_ ?_ ?_ le_rfl
        · simp [Call.exec, Fate.settle, Call.run, hstore, hfits]
        · simp [Call.exec, Fate.settle, Call.run, Call.observe, hstore, hfits]
        · simp [heldBy, hstore]
      · refine h.unchanged hc ht ?_ ?_ <;>
          simp [Call.exec, Fate.settle, Call.run, Call.observe, hstore, hfits]

/-- A top-up keeps the balance. -/
theorem Balanced.topUp {monetaryCollateral : ℤ} {collateralAsset : Option String}
    {k : Except StakeError ArbiterProfile → Prog Call.Ans StakeError ArbiterProfile}
    (hc : Stake.Conforms c) (h : Balanced c) (hfate : fate ≠ .lost)
    (ht : c.threads[i]? =
      some ⟨req, .call (.topUp monetaryCollateral collateralAsset) k, true⟩) :
    Balanced (c.answer staking i fate req (.topUp monetaryCollateral collateralAsset) k) := by
  obtain ⟨⟨asset, hreq⟩, hlog⟩ := hc.guard ht
  have hnonneg := h.deposits _ (List.mem_of_getElem? ht) _ _ hreq
  cases fate with
  | failed => exact h.unchanged hc ht rfl rfl
  | lost => exact absurd rfl hfate
  | answered =>
    cases hstore : c.store with
    | none =>
      refine h.unchanged hc ht ?_ ?_ <;>
        simp [Call.exec, Fate.settle, Call.run, Call.observe, hstore]
    | some profile =>
      by_cases hfits : fitsColumn (profile.monetaryCollateral + monetaryCollateral) = true
      · refine h.deposit { profile with
            monetaryCollateral := profile.monetaryCollateral + monetaryCollateral
            collateralAsset := collateralAsset.or profile.collateralAsset } hc ht hlog
          hnonneg ?_ ?_ ?_ (h.nonneg profile hstore).2
        · simp [Call.exec, Fate.settle, Call.run, hstore, hfits]
        · simp [Call.exec, Fate.settle, Call.run, Call.observe, hstore, hfits]
        · simp [heldBy, hstore]
      · refine h.unchanged hc ht ?_ ?_ <;>
          simp [Call.exec, Fate.settle, Call.run, Call.observe, hstore, hfits]

/-- A slash that writes over what it read takes half of it. -/
theorem Balanced.updateSlashed {monetaryCollateral arbiterReputation : ℤ}
    {k : Except StakeError ArbiterProfile → Prog Call.Ans StakeError ArbiterProfile}
    (hc : Stake.Conforms c) (h : Balanced c) (hfate : fate ≠ .lost)
    (hwrite : ∀ inForce, c.store = some inForce → ∀ read, .read (some read) ∈ c.own i →
      Halvable inForce read)
    (ht : c.threads[i]? =
      some ⟨req, .call (.updateSlashed monetaryCollateral arbiterReputation) k, true⟩) :
    Balanced (c.answer staking i fate req
      (.updateSlashed monetaryCollateral arbiterReputation) k) := by
  obtain ⟨profile, hlog, rfl, rfl⟩ := hc.guard ht
  cases fate with
  | failed =>
    refine h.unchanged hc ht rfl ?_
    cases hstore : c.store <;> simp [Call.exec, Fate.settle, Call.observe]
  | lost => exact absurd rfl hfate
  | answered =>
    cases hstore : c.store with
    | none =>
      refine h.unchanged hc ht ?_ ?_ <;>
        simp [Call.exec, Fate.settle, Call.run, Call.observe, hstore]
    | some inForce =>
      have hhalvable := hwrite inForce hstore profile (by simp [hlog])
      have hnonneg := (h.nonneg inForce hstore).1
      have ⟨hsame, ⟨n, hn⟩, hlt⟩ := hhalvable
      have hhalf : profile.forfeitedCollateral = n :=
        forfeitedCollateral_eq (by omega) (by omega) (by omega)
      have hnew : profile.newCollateral = n := by rw [newCollateral_eq (by omega), hhalf]
      refine h.answer hc ht ?_ ?_ ?_ ?_
      · simp [Call.exec, Fate.settle, Call.run, Call.observe, hstore, hlog, heldBy, owedLog,
          Obs.entry, hnew, hhalf, hn]
      · simp only [Call.exec, Fate.settle, Call.run, hstore]
        rintro _ ⟨⟩
        exact ⟨show 0 ≤ profile.newCollateral by omega, le_max_left _ _⟩
      · simp only [Call.exec, Fate.settle, Call.run, Call.observe, hstore, hlog]
        simp only [List.cons_append, List.nil_append, List.mem_cons, List.not_mem_nil,
          Obs.tookEffect.injEq, Obs.read.injEq, Option.some.injEq, reduceCtorEq, or_false, false_or]
        rintro _ _ rfl rfl
        exact ⟨hnonneg, hhalvable⟩
      · simp [Call.exec, Fate.settle, Call.run, Call.observe, hstore]

/-- The event of a slash keeps the balance. -/
theorem Balanced.emitSlashed {forfeitedCollateral newCollateral newReputation : ℤ}
    {k : Except StakeError Unit → Prog Call.Ans StakeError ArbiterProfile}
    (hc : Stake.Conforms c) (h : Balanced c) (hfate : fate = .answered)
    (ht : c.threads[i]? = some
      ⟨req, .call (.emitSlashed forfeitedCollateral newCollateral newReputation) k, true⟩) :
    Balanced (c.answer staking i fate req
      (.emitSlashed forfeitedCollateral newCollateral newReputation) k) := by
  obtain ⟨inForce, profile, hlog, rfl⟩ := hc.guard ht
  subst hfate
  obtain ⟨hnonneg, hsame, ⟨n, hn⟩, hlt⟩ := h.halvable i inForce profile (by simp [hlog])
    (by simp [hlog])
  have hhalf : profile.forfeitedCollateral = n :=
    forfeitedCollateral_eq (by omega) (by omega) (by omega)
  refine h.answer hc ht ?_ h.nonneg ?_ ?_
  · simp [Call.exec, Fate.settle, Call.run, Call.observe, hlog, owedLog, Obs.entry]
  · have hold := h.halvable i
    simpa [Call.exec, Fate.settle, Call.run, Call.observe] using hold
  · simp only [Call.exec, Fate.settle, Call.run, Call.observe, List.mem_singleton,
      Obs.forfeited.injEq]
    rintro _ rfl
    refine ⟨inForce, by simp [hlog], ?_⟩
    have hdouble : (inForce.monetaryCollateral : ℚ) / 2 = n := by
      rw [hn]
      push_cast
      ring
    rw [hhalf, hdouble, toFixed_intCast]

end Calls

/-- A new request keeps the balance. -/
theorem Balanced.spawn {c : Stake} (h : Balanced c) {req : Req}
    (horderly : Orderly c (.start req)) : Balanced (c.spawn staking req) := by
  have howed : owed ⟨req, staking.prog req, true⟩ = 0 := by cases req <;> rfl
  refine ⟨?_, h.nonneg, ?_, ?_, ?_⟩
  · have howing : Stake.owing (c.spawn staking req) = Stake.owing c := by
      rw [Stake.owing, Config.spawn, List.map_append, List.sum_append, List.map_singleton,
        List.sum_singleton, howed, add_zero]
      rfl
    rw [howing]
    exact h.balance
  · intro t ht monetaryCollateral asset hreq
    rcases List.mem_append.mp ht with hold | hnew
    · exact h.deposits t hold monetaryCollateral asset hreq
    · obtain rfl := List.mem_singleton.mp hnew
      cases req with
      | slash => cases hreq
      | register deposit _ =>
        cases hreq
        exact horderly
  · simpa only [own_spawn] using h.halvable
  · simpa only [own_spawn] using h.halves

/-- A crash that the condition allows keeps the balance. -/
theorem Balanced.kill {c : Stake} (h : Balanced c) {i : ℕ}
    {t : Thread Call.Ans StakeError ArbiterProfile Req} (ht : c.threads[i]? = some t)
    (horderly : Orderly c (.crash i)) : Balanced (c.kill i t) := by
  have howed : owed t = 0 := by
    obtain ⟨req, _ | ⟨q, k⟩, _ | _⟩ := t
    · rfl
    · rfl
    · cases q <;> rfl
    · cases q with
      | emitSlashed f n r => exact absurd (next_of_call ht) (horderly f n r)
      | _ => rfl
  have hdead : owed { t with live := false } = 0 := by
    obtain ⟨req, _ | ⟨q, k⟩, live⟩ := t
    · rfl
    · cases q <;> rfl
  refine ⟨?_, h.nonneg, ?_, ?_, ?_⟩
  · have howing : Stake.owing (c.kill i t) = Stake.owing c := by
      rw [Stake.owing, Config.kill, owing_set ht, howed, hdead, sub_zero, add_zero]
    rw [howing]
    exact h.balance
  · intro t' ht' monetaryCollateral asset hreq
    rcases List.mem_or_eq_of_mem_set ht' with hold | rfl
    · exact h.deposits t' hold monetaryCollateral asset hreq
    · exact h.deposits t (List.mem_of_getElem? ht) monetaryCollateral asset hreq
  · simpa only [own_kill] using h.halvable
  · simpa only [own_kill] using h.halves

/-- Every call that the condition allows keeps the balance. -/
theorem Balanced.run {c : Stake} (hc : Stake.Conforms c) (h : Balanced c) {i : ℕ} {fate : Fate}
    {req : Req} {q : Call} {k : Except StakeError q.Ans → Prog Call.Ans StakeError ArbiterProfile}
    (ht : c.threads[i]? = some ⟨req, .call q k, true⟩) (horderly : Orderly c (.run i fate)) :
    Balanced (c.answer staking i fate req q k) := by
  simp only [Orderly, next_of_call ht] at horderly
  cases q with
  | findUnique => exact h.findUnique hc ht
  | create monetaryCollateral collateralAsset => exact h.create hc horderly ht
  | topUp monetaryCollateral collateralAsset => exact h.topUp hc horderly ht
  | updateSlashed monetaryCollateral arbiterReputation =>
    exact h.updateSlashed hc horderly.1 horderly.2 ht
  | emitSlashed forfeitedCollateral newCollateral newReputation =>
    exact h.emitSlashed hc horderly ht

/-- In every orderly run the collateral is what was deposited less what was forfeited. -/
theorem collateral_conserved (run : List (Action Fate Req))
    (horderly : Along staking Orderly (init none) run) :
    Conserved ((init none : Stake).exec staking run) := by
  have hstart : Balanced (init none : Stake) :=
    ⟨rfl, nofun, nofun, nofun, nofun⟩
  obtain ⟨-, h⟩ := run_invariant prog_guarded (fun _ _ _ _ => trivial)
    (fun _ h horderly => h.spawn horderly) (fun hc h horderly ht _ => h.run hc ht horderly)
    (fun _ h horderly ht => h.kill ht horderly) run (conforms_init trivial) hstart horderly
  refine ⟨fun hq => ?_, h.halves, h.nonneg⟩
  rw [h.balance, owing_of_quiescent hq, add_zero]

/-- A profile with one coin of collateral. -/
def oneBitcoin : ArbiterProfile := ⟨100000000, some "BTC", 0, 0⟩

/-- A registration of one bitcoin, then a slash. -/
def slashedRun : List (Action Fate Req) :=
  [.start (.register 100000000 (some "BTC")), .run 0 .answered, .run 0 .answered, .start .slash,
    .run 1 .answered, .run 1 .answered, .run 1 .answered]

/-- The sample run conserves the collateral. -/
theorem slashed_conserved : Conserved ((init none : Stake).exec staking slashedRun) := by
  refine collateral_conserved slashedRun ⟨(by decide : (0 : ℤ) ≤ 100000000), trivial,
    (by decide : Fate.answered ≠ .lost), trivial, trivial, ⟨by decide, ?_⟩, rfl, trivial⟩
  rintro inForce hstore read hread
  cases hstore
  have hown : Obs.read (some read) ∈ [Obs.read (some oneBitcoin)] := hread
  obtain rfl : read = oneBitcoin := by simpa using hown
  exact ⟨rfl, by decide, by decide⟩

/-- A top-up of one bitcoin while a slash is between its read and its write. -/
def racedRun : List (Action Fate Req) :=
  [.start (.register 100000000 (some "BTC")), .run 0 .answered, .run 0 .answered, .start .slash,
    .run 1 .answered, .start (.register 100000000 none), .run 2 .answered, .run 2 .answered,
    .run 1 .answered, .run 1 .answered]

/-- A slash overwrites a top-up made between its read and its write. -/
theorem top_up_overwritten :
    ¬ ∀ run : List (Action Fate Req), Conserved ((init none : Stake).exec staking run) := by
  intro h
  have hbalance := (h racedRun).balance rfl
  have hheld : Stake.held ((init none : Stake).exec staking racedRun) =
      (oneBitcoin.newCollateral, 1) := rfl
  have hbooked : Stake.booked ((init none : Stake).exec staking racedRun) =
      (-oneBitcoin.forfeitedCollateral, 1) + (0 + ((100000000, 0) + (0 + (0 +
        ((100000000, 0) + (0 + 0)))))) := rfl
  have hhalf : oneBitcoin.forfeitedCollateral = 50000000 :=
    forfeitedCollateral_eq (by decide) (by decide) rfl
  rw [hheld, hbooked, newCollateral_eq (by decide), hhalf] at hbalance
  exact absurd hbalance (by decide)

end Sails.Arbitration.Slashing
