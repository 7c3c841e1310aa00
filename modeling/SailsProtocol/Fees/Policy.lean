import SailsProtocol.Fees.Account

/-!
# Distribution policies

`publish` of `distribution-policy.service.ts` reads the policy and its recipients, validates
what it has read, and then sets the status by the number of the policy alone. `retire` does
the same, and `addRecipient` writes without a check. The database refuses a recipient once
the policy is not a `DRAFT`, and a second policy that is `PUBLISHED`.

`policies_partition` : as long as every publication meets the policy its call has validated,
every policy that is `PUBLISHED` or `RETIRED` divides exactly 100, and the status only moves
from `DRAFT` over `PUBLISHED` to `RETIRED`. `recipient_added_late` : a recipient that is added
between the validation and the update is published with a sum of 110.
-/

namespace Sails.Policy

open Async Numeric Fees

/-! ## Rows -/

/-- `PolicyStatus`. -/
inductive PolicyStatus where
  | DRAFT
  | PUBLISHED
  | RETIRED
  deriving DecidableEq, Repr

/-- A row of `DistributionPolicyVersion` and its recipients. -/
structure PolicyRow where
  status : PolicyStatus
  recipients : List Recipient
  deriving DecidableEq

/-- The policies, numbered in the order of their creation. -/
abbrev PolicyStore := List PolicyRow

/-- What the operations throw. -/
inductive PolicyError where
  | fault
  | notFound
  | notDraft
  | notPublished
  | noRecipients
  | weightNotPositive
  | wrongSum
  | parentNotDraft
  | duplicateRecipient
  | alreadyPublished
  deriving DecidableEq, Repr

/-! ## Calls -/

/-- What the operations await. -/
inductive Call where
  | createDraft
  | addRecipient (id recipientId : ℕ) (weightPct : ℚ)
  | findStatus (id : ℕ)
  | findRecipients (id : ℕ)
  | publish (id : ℕ)
  | retire (id : ℕ)
  deriving DecidableEq

/-- What each call returns. -/
abbrev Answer : Call → Type
  | .findStatus _ => Option PolicyStatus
  | .findRecipients _ => List Recipient
  | _ => Unit

namespace PolicyStore

variable (s : PolicyStore) (id : ℕ)

/-- Write the status of a policy. -/
def setStatus (status : PolicyStatus) : PolicyStore := s.modify id ({ · with status := status })

/-- The insert of a recipient, with the check of its trigger and the unique key. -/
def insertRecipient (r : Recipient) : Except PolicyError Unit × PolicyStore :=
  match s[id]? with
  | none => (.error .notFound, s)
  | some row =>
    if row.status ≠ .DRAFT then (.error .parentNotDraft, s)
    else if row.recipients.any (·.recipientId = r.recipientId) then (.error .duplicateRecipient, s)
    else (.ok (), s.modify id fun row => { row with recipients := row.recipients ++ [r] })

/-- Another policy is `PUBLISHED`. -/
def otherPublished : Bool :=
  s.zipIdx.any fun p => p.1.status = .PUBLISHED ∧ p.2 ≠ id

end PolicyStore

/-- What a call answers and does to the policies when it does not fail. -/
def Call.run : (q : Call) → PolicyStore → Except PolicyError (Answer q) × PolicyStore
  | .createDraft, s => (.ok (), s ++ [⟨.DRAFT, []⟩])
  | .addRecipient id recipientId weightPct, s =>
    s.insertRecipient id ⟨recipientId, toColumn weightPct⟩
  | .findStatus id, s => (.ok (s[id]?.map PolicyRow.status), s)
  | .findRecipients id, s => (.ok ((s[id]?.map PolicyRow.recipients).getD []), s)
  | .publish id, s =>
    if s.otherPublished id then (.error .alreadyPublished, s)
    else (.ok (), s.setStatus id .PUBLISHED)
  | .retire id, s => (.ok (), s.setStatus id .RETIRED)

/-- The answer to a call with this fate, and the policies after it. -/
def Call.exec (q : Call) (fate : Fate) (s : PolicyStore) :
    Except PolicyError (Answer q) × PolicyStore :=
  fate.settle .fault (q.run s) s

/-! ## Operations -/

/-- A program over these calls. -/
abbrev PolicyOp := Prog Answer PolicyError

/-- One call, as a program. -/
def await (q : Call) : PolicyOp (Answer q) := Prog.perform q

/-- `findById`, with the recipients in a query of their own. -/
def findById (id : ℕ) : PolicyOp PolicyRow := do
  let found : Option PolicyStatus ← await (.findStatus id)
  let status ← Prog.orThrow found .notFound
  let recipients : List Recipient ← await (.findRecipients id)
  pure ⟨status, recipients⟩

/-- The structural validation of `publish`. -/
def validate (policy : PolicyRow) : Except PolicyError Unit :=
  if policy.status ≠ .DRAFT then .error .notDraft
  else if policy.recipients.isEmpty then .error .noRecipients
  else if policy.recipients.any (·.weightPct ≤ 0) then .error .weightNotPositive
  else if total (policy.recipients.map Recipient.weightPct) ≠ 100 then .error .wrongSum
  else .ok ()

/-- `publish`. -/
def publish (id : ℕ) : PolicyOp Unit := do
  let policy ← findById id
  Prog.ret (validate policy)
  await (.publish id)

/-- `retire`. -/
def retire (id : ℕ) : PolicyOp Unit := do
  let policy ← findById id
  Prog.require (policy.status == .PUBLISHED) .notPublished
  await (.retire id)

/-- What an operator can ask for. -/
inductive PolicyReq where
  | createDraft
  | addRecipient (id recipientId : ℕ) (weightPct : ℚ)
  | publish (id : ℕ)
  | retire (id : ℕ)
  deriving DecidableEq

/-- The program that serves a request. -/
def PolicyReq.prog : PolicyReq → PolicyOp Unit
  | .createDraft => await .createDraft
  | .addRecipient id recipientId weightPct => await (.addRecipient id recipientId weightPct)
  | .publish id => Policy.publish id
  | .retire id => Policy.retire id

/-- What is observed : a policy that was found `PUBLISHED`, and the recipients that were
read. -/
inductive Looked where
  | published (id : ℕ)
  | recipients (id : ℕ) (recipients : List Recipient)
  deriving DecidableEq

/-- What a call tells about the policies. -/
def looked : (q : Call) → PolicyStore → Except PolicyError (Answer q) → List Looked
  | .findStatus id, _, .ok (some .PUBLISHED) => [.published id]
  | .findRecipients id, _, .ok l => [.recipients id l]
  | _, _, _ => []

/-- The policies and the requests about them. -/
def policySystem : System Answer PolicyError Unit PolicyStore Fate PolicyReq Looked where
  exec := Call.exec
  observe := looked
  prog := PolicyReq.prog

/-- The rows and the requests about them. -/
abbrev Operators := Config Answer PolicyError Unit PolicyStore PolicyReq Looked

/-! ## What a policy is for -/

/-- The recipients divide exactly 100. -/
structure PolicyRow.Partition (row : PolicyRow) : Prop where
  nonempty : row.recipients ≠ []
  positive : ∀ r ∈ row.recipients, 0 < r.weightPct
  whole : (row.recipients.map Recipient.weightPct).sum = 100

/-- The statuses of a policy, before and after a change. -/
def Succeeds : PolicyStatus → PolicyStatus → Prop
  | .DRAFT, .PUBLISHED => True
  | .PUBLISHED, .RETIRED => True
  | _, _ => False

/-- Every policy keeps its status in a step or moves on to the next. -/
def MovesOn (c : Operators) (a : Action Fate PolicyReq) : Prop :=
  ∀ (id : ℕ) (row row' : PolicyRow), c.store[id]? = some row →
    (c.step policySystem a).store[id]? = some row' →
      row'.status = row.status ∨ Succeeds row.status row'.status

/-- What was read is the recipients of the row. -/
def Looked.shows (row : PolicyRow) : Looked → Bool
  | .recipients _ l => l = row.recipients
  | .published _ => true

/-- The update of a publication meets the policy its call has validated : it is not retired,
and while it is a draft its recipients are those that were read. -/
def ValidatedCall (c : Operators) (i : ℕ) (fate : Fate) : Option Call → Prop
  | some (.publish id) => fate ≠ .failed → ∀ row ∈ c.store[id]?,
      row.status ≠ .RETIRED ∧
        (row.status = .DRAFT → ∀ o ∈ c.own i, o.shows row = true)
  | _ => True

/-- The condition on a step. -/
def Validated (c : Operators) : Action Fate PolicyReq → Prop
  | .run i fate => ValidatedCall c i fate (c.next i)
  | _ => True

/-! ## Sums of weights -/

theorem le_decimal {x : ℚ} (h : 10 ^ 12 ≤ x) : 10 ^ 12 ≤ decimal x := by
  have hexact : decimal (10 ^ 12) = 10 ^ 12 := by
    exact_mod_cast decimal_natCast (n := 10 ^ 12) (by norm_num)
  rw [← hexact]
  exact decimal_mono h

/-- A sum that is large stays large. -/
theorem le_foldl_plus {l : List ℚ} : ∀ {x : ℚ}, (∀ w ∈ l, 0 ≤ w) → 10 ^ 12 ≤ x →
    10 ^ 12 ≤ l.foldl plus x := by
  induction l with
  | nil => exact fun _ hx => hx
  | cons w l ih =>
    intro x hl hx
    refine ih (fun v hv => hl v (List.mem_cons_of_mem w hv)) (le_decimal ?_)
    have hw := hl w List.mem_cons_self
    linarith

/-- Weights of eight places whose decimals add up to 100 sum to 100. -/
theorem sum_of_foldl_plus {l : List ℚ} : ∀ {n : ℕ}, (∀ w ∈ l, ∃ m : ℕ, w = ofUnits m) →
    l.foldl plus (ofUnits n) = 100 → ofUnits n + l.sum = 100 := by
  induction l with
  | nil =>
    intro n _ h
    rw [List.sum_nil, add_zero]
    exact h
  | cons w l ih =>
    intro n hl h
    obtain ⟨m, rfl⟩ := hl w List.mem_cons_self
    have hunits : ofUnits n + ofUnits m = ofUnits (n + m) := by
      rw [ofUnits, ofUnits, ofUnits]
      push_cast
      ring
    rw [List.foldl_cons, plus, hunits] at h
    have hrest := fun v hv => hl v (List.mem_cons_of_mem _ hv)
    by_cases hlt : n + m < 10 ^ 20
    · rw [decimal_ofUnits hlt] at h
      rw [List.sum_cons, ← add_assoc, hunits]
      exact ih hrest h
    · -- a sum that does not fit is far above 100
      have hbig : (10 : ℚ) ^ 12 ≤ decimal (ofUnits (n + m)) := by
        refine le_decimal ?_
        have hle : (10 : ℚ) ^ 20 ≤ (n + m : ℕ) := by exact_mod_cast Nat.not_lt.mp hlt
        rw [ofUnits, le_div_iff₀ (by positivity)]
        linarith
      have hfar := le_foldl_plus (fun v hv => by
        obtain ⟨k, rfl⟩ := hrest v hv
        rw [ofUnits]
        positivity) hbig
      rw [h] at hfar
      norm_num at hfar

/-- What the validation has checked. -/
def ValidWeights (l : List Recipient) : Prop :=
  l ≠ [] ∧ (∀ r ∈ l, 0 < r.weightPct) ∧ total (l.map Recipient.weightPct) = 100

theorem validWeights_of_validate {policy : PolicyRow} (h : validate policy = .ok ()) :
    ValidWeights policy.recipients := by
  unfold validate at h
  split_ifs at h with hdraft hempty hpositive hsum
  refine ⟨by simpa using hempty, ?_, by simpa using hsum⟩
  simpa using hpositive

/-- The weights are values of their column. -/
def PolicyRow.InColumns (row : PolicyRow) : Prop :=
  ∀ r ∈ row.recipients, ∃ k : ℤ, r.weightPct = k / 10 ^ 8

/-- Recipients that pass the validation divide exactly 100. -/
theorem partition_of_validWeights {row : PolicyRow} (hcolumns : row.InColumns)
    (h : ValidWeights row.recipients) : row.Partition := by
  obtain ⟨hne, hpositive, htotal⟩ := h
  have hunits : ∀ w ∈ row.recipients.map Recipient.weightPct, ∃ m : ℕ, w = ofUnits m := by
    intro w hw
    obtain ⟨r, hr, rfl⟩ := List.mem_map.mp hw
    obtain ⟨k, hk⟩ := hcolumns r hr
    have hpos := hpositive r hr
    rw [hk] at hpos ⊢
    have hk0 : 0 ≤ k := by
      by_contra hneg
      have : (k : ℚ) < 0 := by exact_mod_cast not_le.mp hneg
      linarith [div_neg_of_neg_of_pos this (by positivity : (0 : ℚ) < 10 ^ 8)]
    obtain ⟨m, rfl⟩ := Int.eq_ofNat_of_zero_le hk0
    exact ⟨m, by rw [ofUnits, Int.cast_natCast]⟩
  have hzero : ofUnits 0 = 0 := by simp [ofUnits]
  have hsum := sum_of_foldl_plus (n := 0) hunits (by rw [hzero]; exact htotal)
  rw [hzero, zero_add] at hsum
  exact ⟨hne, hpositive, hsum⟩

/-! ## What a call does to a policy -/

/-- A policy after a call is as before, new, a draft with one more recipient, published or
retired. -/
inductive RowStep (q : Call) (fate : Fate) (id : ℕ) : Option PolicyRow → PolicyRow → Prop
  | same {row : PolicyRow} : RowStep q fate id (some row) row
  | created : RowStep q fate id none ⟨.DRAFT, []⟩
  | added {row : PolicyRow} {recipientId : ℕ} {weightPct : ℚ} (hdraft : row.status = .DRAFT) :
      RowStep q fate id (some row)
        { row with recipients := row.recipients ++ [⟨recipientId, toColumn weightPct⟩] }
  | published {row : PolicyRow} (hq : q = .publish id) (hfate : fate ≠ .failed) :
      RowStep q fate id (some row) { row with status := .PUBLISHED }
  | retired {row : PolicyRow} (hq : q = .retire id) :
      RowStep q fate id (some row) { row with status := .RETIRED }

/-- A modified policy. -/
theorem getElem?_modify_cases {s : PolicyStore} {id id' : ℕ} {f : PolicyRow → PolicyRow}
    {row' : PolicyRow} (h : (s.modify id f)[id']? = some row') :
    s[id']? = some row' ∨ id' = id ∧ ∃ row, s[id']? = some row ∧ row' = f row := by
  rw [List.getElem?_modify] at h
  by_cases hid : id = id'
  · subst hid
    obtain ⟨row, hrow, hf⟩ := Option.map_eq_some_iff.mp h
    exact Or.inr ⟨rfl, row, hrow, by simpa using hf.symm⟩
  · left
    simpa [hid] using h

/-- What a call does to one row. -/
theorem exec_row {q : Call} {fate : Fate} {s : PolicyStore} {id : ℕ} {row' : PolicyRow}
    (h : (q.exec fate s).2[id]? = some row') : RowStep q fate id s[id]? row' := by
  have hsame : s[id]? = some row' → RowStep q fate id s[id]? row' := fun h => h ▸ .same
  rcases fate.settle_store .fault (q.run s) s with heq | heq
  · rw [Call.exec, heq] at h
    exact hsame h
  by_cases hfate : fate = .failed
  · rw [Call.exec, hfate] at h
    exact hsame h
  rw [Call.exec, heq] at h
  cases q with
  | createDraft =>
    rw [Call.run, List.getElem?_append] at h
    split_ifs at h with hlt
    · exact hsame h
    · rw [List.getElem?_singleton] at h
      split_ifs at h
      cases h
      rw [List.getElem?_eq_none (Nat.not_lt.mp hlt)]
      exact .created
  | addRecipient id' recipientId weightPct =>
    rw [Call.run, PolicyStore.insertRecipient] at h
    cases hrow : s[id']? with
    | none =>
      rw [hrow] at h
      exact hsame h
    | some row =>
      rw [hrow] at h
      simp only at h
      split_ifs at h with hstatus hduplicate
      · exact hsame h
      · exact hsame h
      · rcases getElem?_modify_cases h with h | ⟨rfl, row₀, hrow₀, rfl⟩
        · exact hsame h
        · rw [hrow] at hrow₀ ⊢
          cases hrow₀
          exact .added (not_not.mp hstatus)
  | findStatus id' => exact hsame h
  | findRecipients id' => exact hsame h
  | publish id' =>
    rw [Call.run] at h
    split_ifs at h
    · exact hsame h
    · rcases getElem?_modify_cases h with h | ⟨rfl, row, hrow, rfl⟩
      · exact hsame h
      · rw [hrow]
        exact .published rfl hfate
  | retire id' =>
    rcases getElem?_modify_cases h with h | ⟨rfl, row, hrow, rfl⟩
    · exact hsame h
    · rw [hrow]
      exact .retired rfl

/-- No policy is deleted. -/
theorem length_exec (q : Call) (fate : Fate) (s : PolicyStore) :
    s.length ≤ (q.exec fate s).2.length := by
  rcases fate.settle_store .fault (q.run s) s with heq | heq
  · rw [Call.exec, heq]
  · rw [Call.exec, heq]
    cases q with
    | createDraft => simp [Call.run]
    | addRecipient id recipientId weightPct =>
      rw [Call.run, PolicyStore.insertRecipient]
      cases s[id]? with
      | none => exact le_rfl
      | some row =>
        simp only
        split_ifs
        · exact le_rfl
        · exact le_rfl
        · rw [List.length_modify]
    | findStatus id => exact le_rfl
    | findRecipients id => exact le_rfl
    | publish id =>
      rw [Call.run]
      split_ifs
      · exact le_rfl
      · rw [PolicyStore.setStatus, List.length_modify]
    | retire id => rw [Call.run, PolicyStore.setStatus, List.length_modify]

/-- A policy that is not a draft never is one again. -/
theorem row_stays {q : Call} {fate : Fate} {s : PolicyStore} {id : ℕ} {row : PolicyRow}
    (h : s[id]? = some row) (hdraft : row.status ≠ .DRAFT) :
    ∃ row', (q.exec fate s).2[id]? = some row' ∧ row'.status ≠ .DRAFT := by
  have hlt : id < (q.exec fate s).2.length :=
    ((List.getElem?_eq_some_iff.mp h).1).trans_le (length_exec q fate s)
  refine ⟨(q.exec fate s).2[id], List.getElem?_eq_getElem hlt, ?_⟩
  have hstep := exec_row (List.getElem?_eq_getElem hlt)
  rw [h] at hstep
  generalize (q.exec fate s).2[id] = row' at hstep
  cases hstep with
  | same => exact hdraft
  | added hrow => exact absurd hrow hdraft
  | published _ _ => exact nofun
  | retired _ => exact nofun

/-! ## Guards -/

/-- A publication has validated the recipients it read, and a retirement has found the policy
published. -/
def PolicyGuard (_ : PolicyReq) (log : List Looked) : Call → Prop
  | .publish id => ∃ l, Looked.recipients id l ∈ log ∧ ValidWeights l
  | .retire id => Looked.published id ∈ log
  | _ => True

section Guards

variable {can : ∀ q : Call, PolicyStore → Except PolicyError (Answer q) → Prop}

/-- What `findById` returns was observed. -/
theorem findById_guarded (req : PolicyReq) (id : ℕ) :
    (findById id).Guarded can looked (PolicyGuard req) (fun log r => ∀ policy, r = .ok policy →
      Looked.recipients id policy.recipients ∈ log ∧
        (policy.status = .PUBLISHED → Looked.published id ∈ log)) [] := by
  refine (Prog.guarded_bind _ _ _).mpr ⟨trivial, fun s r _ => ?_⟩
  rcases r with e | _ | status
  · exact nofun
  · exact nofun
  · refine (Prog.guarded_bind _ _ _).mpr ((Prog.guarded_orThrow _ _).mpr ⟨?_, nofun⟩)
    intro _ hsome
    cases hsome
    refine (Prog.guarded_bind _ _ _).mpr ⟨trivial, fun s' r' _ => ?_⟩
    cases r' with
    | error e => exact nofun
    | ok l =>
      rintro policy hpolicy
      cases hpolicy
      refine ⟨List.mem_cons_self, ?_⟩
      rintro rfl
      exact List.mem_cons_of_mem _ List.mem_cons_self

/-- Every call of a request meets its guard. -/
theorem policy_guards (req : PolicyReq) :
    (req.prog).Calls can looked (PolicyGuard req) [] := by
  cases req with
  | createDraft => exact Prog.calls_perform trivial
  | addRecipient id recipientId weightPct => exact Prog.calls_perform trivial
  | publish id =>
    refine Prog.Calls.bind ((findById_guarded _ id).mono fun log r hr policy hpolicy => ?_)
    obtain ⟨hread, -⟩ := hr policy hpolicy
    cases hvalid : validate policy with
    | error e => trivial
    | ok u =>
      exact Prog.calls_perform ⟨policy.recipients, hread, validWeights_of_validate hvalid⟩
  | retire id =>
    refine Prog.Calls.bind ((findById_guarded _ id).mono fun log r hr policy hpolicy => ?_)
    obtain ⟨-, hread⟩ := hr policy hpolicy
    refine Prog.Calls.require_bind fun hpublished => ?_
    exact Prog.calls_perform (hread (by simpa using hpublished))

end Guards

/-! ## Runs -/

/-- Weights are values of their column, what is not a draft divides 100, and a policy that was
found published is not a draft. -/
structure Sound (c : Operators) : Prop where
  columns : ∀ (id : ℕ) (row : PolicyRow), c.store[id]? = some row → row.InColumns
  live : ∀ (id : ℕ) (row : PolicyRow), c.store[id]? = some row → row.status ≠ .DRAFT →
    row.Partition
  seen : ∀ j id, Looked.published id ∈ c.own j →
    ∃ row, c.store[id]? = some row ∧ row.status ≠ .DRAFT

section Steps

variable {c : Operators}

theorem sound_init : Sound (.init []) where
  columns := nofun
  live := nofun
  seen := fun _ _ h => by simp [Config.own, Config.init] at h

/-- What a call may do to a policy in a run whose publications are validated. -/
theorem row_after (h : Sound c) {i : ℕ} {fate : Fate} {req : PolicyReq} {q : Call}
    {k : Except PolicyError (Answer q) → PolicyOp Unit}
    (ht : c.threads[i]? = some ⟨req, .call q k, true⟩) (hguard : PolicyGuard req (c.own i) q)
    (hvalidated : Validated c (.run i fate)) {id : ℕ} {row' : PolicyRow}
    (hrow' : (q.exec fate c.store).2[id]? = some row') :
    row'.InColumns ∧ (row'.status ≠ .DRAFT → row'.Partition) ∧
      ∀ row, c.store[id]? = some row →
        row'.status = row.status ∨ Succeeds row.status row'.status := by
  have hstep := exec_row hrow'
  generalize hrow : c.store[id]? = old at hstep
  cases hstep with
  | same =>
    refine ⟨h.columns id _ hrow, h.live id _ hrow, fun row hsome => ?_⟩
    cases hsome
    exact Or.inl rfl
  | created => exact ⟨nofun, fun hne => absurd rfl hne, nofun⟩
  | @added row recipientId weightPct hdraft =>
    refine ⟨fun r hr => ?_, fun hne => absurd hdraft hne, fun row hsome => ?_⟩
    · rcases List.mem_append.mp hr with hr | hr
      · exact h.columns id row hrow r hr
      · obtain rfl := List.mem_singleton.mp hr
        exact ⟨_, rfl⟩
    · cases hsome
      exact Or.inl rfl
  | @published row hq hfate =>
    subst hq
    obtain ⟨l, hl, hvalid⟩ := hguard
    rw [Validated, Config.next_of_call ht] at hvalidated
    obtain ⟨hretired, hdraft⟩ := hvalidated hfate row hrow
    refine ⟨h.columns id row hrow, fun _ => ?_, fun row' hsome => ?_⟩
    · by_cases hstatus : row.status = .DRAFT
      · have hread : l = row.recipients := by
          simpa [Looked.shows] using hdraft hstatus _ hl
        have hpartition := partition_of_validWeights (h.columns id row hrow) (hread ▸ hvalid)
        exact ⟨hpartition.nonempty, hpartition.positive, hpartition.whole⟩
      · have hpartition := h.live id row hrow hstatus
        exact ⟨hpartition.nonempty, hpartition.positive, hpartition.whole⟩
    · cases hsome
      cases hstatus : row.status with
      | DRAFT => exact Or.inr trivial
      | PUBLISHED => exact Or.inl rfl
      | RETIRED => exact absurd hstatus hretired
  | @retired row hq =>
    subst hq
    obtain ⟨row₀, hrow₀, hstatus⟩ := h.seen i id hguard
    rw [hrow] at hrow₀
    cases hrow₀
    have hpartition := h.live id row hrow hstatus
    refine ⟨h.columns id row hrow, fun _ => ⟨hpartition.nonempty, hpartition.positive,
      hpartition.whole⟩, fun row' hsome => ?_⟩
    cases hsome
    cases hcase : row.status with
    | DRAFT => exact absurd hcase hstatus
    | PUBLISHED => exact Or.inr trivial
    | RETIRED => exact Or.inl rfl

/-- A policy seen as published is no draft. -/
theorem published_of_looked {q : Call} {fate : Fate} {s : PolicyStore} {id : ℕ}
    (h : Looked.published id ∈ looked q s (q.exec fate s).1) :
    ∃ row, s[id]? = some row ∧ row.status ≠ .DRAFT := by
  cases q with
  | findStatus id' =>
    rcases fate.settle_answer .fault ((Call.findStatus id').run s) s with heq | herr
    · rw [Call.exec, heq, Call.run] at h
      cases hrow : s[id']? with
      | none =>
        rw [hrow] at h
        cases h
      | some row =>
        rw [hrow, Option.map_some] at h
        cases hstatus : row.status <;> rw [hstatus] at h
        · cases h
        · obtain rfl := Looked.published.inj (List.mem_singleton.mp h)
          exact ⟨row, hrow, by rw [hstatus]; exact nofun⟩
        · cases h
    · rw [Call.exec, herr] at h
      cases h
  | findRecipients id' =>
    rcases hr : ((Call.findRecipients id').exec fate s).1 with e | l <;> rw [hr] at h
    · cases h
    · exact absurd (List.mem_singleton.mp h) nofun
  | _ => cases h

/-- A call that the condition allows keeps the invariant. -/
theorem Sound.answer (h : Sound c) {i : ℕ} {fate : Fate} {req : PolicyReq} {q : Call}
    {k : Except PolicyError (Answer q) → PolicyOp Unit}
    (ht : c.threads[i]? = some ⟨req, .call q k, true⟩) (hguard : PolicyGuard req (c.own i) q)
    (hvalidated : Validated c (.run i fate)) :
    Sound (c.answer policySystem i fate req q k) := by
  refine ⟨fun id row hrow => ?_, fun id row hrow => ?_, fun j id hmem => ?_⟩
  · exact (row_after h ht hguard hvalidated hrow).1
  · exact (row_after h ht hguard hvalidated hrow).2.1
  · have hbefore : ∃ row, c.store[id]? = some row ∧ row.status ≠ .DRAFT := by
      rcases Config.mem_own_of_answer hmem with ⟨-, hobs⟩ | hmem
      · exact published_of_looked hobs
      · exact h.seen j id hmem
    obtain ⟨row, hrow, hstatus⟩ := hbefore
    exact row_stays hrow hstatus

/-- Every thread is guarded at what it has read. -/
abbrev Careful : Operators → Prop :=
  Config.Conforms policySystem (fun _ => True) PolicyGuard fun _ _ _ => True

/-- A step that the condition allows moves a policy on. -/
theorem Sound.movesOn (hc : Careful c) (h : Sound c) {a : Action Fate PolicyReq}
    (hvalidated : Validated c a) : MovesOn c a := by
  intro id row row' hrow hrow'
  rcases Config.step_cases (S := policySystem) (c := c) a with heq | ⟨req, -, heq⟩ |
    ⟨i, fate, req, q, k, rfl, ht, heq⟩ | ⟨i, t, -, ht, heq⟩ <;> rw [heq] at hrow'
  · exact Or.inl (by rw [Option.some.inj (hrow.symm.trans hrow')])
  · exact Or.inl (by rw [Option.some.inj (hrow.symm.trans hrow')])
  · exact (row_after h ht (hc.guard ht) hvalidated hrow').2.2 row hrow
  · exact Or.inl (by rw [Option.some.inj (hrow.symm.trans hrow')])

end Steps

/-- Every live policy is a partition : in every run in which the update of each publication
meets the policy its call has validated, every policy that is `PUBLISHED` or `RETIRED` has
recipients of positive weights that sum to exactly 100, and the status of a policy only moves
from `DRAFT` to `PUBLISHED` and from there to `RETIRED`. -/
theorem policies_partition (as : List (Action Fate PolicyReq))
    (h : Config.Along policySystem Validated (.init []) as) :
    (∀ (id : ℕ) (row : PolicyRow), (Config.exec policySystem (.init []) as).store[id]? = some row →
      row.status ≠ .DRAFT → row.Partition) ∧
      Config.Along policySystem MovesOn (.init []) as := by
  have hinit : Careful (.init []) := Config.conforms_init trivial
  constructor
  · exact (Config.run_invariant (I := Sound) (fun req => policy_guards req)
      (fun _ _ _ _ => trivial) (fun _ h _ => ⟨h.columns, h.live, h.seen⟩)
      (fun _ h hA ht hguard => h.answer ht hguard hA)
      (fun _ h _ _ => ⟨h.columns, h.live, h.seen⟩) as hinit sound_init h).2.live
  · exact Config.run_along (I := Sound) (fun req => policy_guards req)
      (fun _ _ _ _ => trivial) (fun _ h _ => ⟨h.columns, h.live, h.seen⟩)
      (fun _ h hA ht hguard => h.answer ht hguard hA)
      (fun _ h _ _ => ⟨h.columns, h.live, h.seen⟩) (fun hc h hA => h.movesOn hc hA)
      hinit sound_init h

instance (c : Operators) (i : ℕ) (fate : Fate) : (q : Option Call) →
    Decidable (ValidatedCall c i fate q)
  | none => inferInstanceAs (Decidable True)
  | some (.publish _) => inferInstanceAs (Decidable (_ → _))
  | some .createDraft => inferInstanceAs (Decidable True)
  | some (.addRecipient _ _ _) => inferInstanceAs (Decidable True)
  | some (.findStatus _) => inferInstanceAs (Decidable True)
  | some (.findRecipients _) => inferInstanceAs (Decidable True)
  | some (.retire _) => inferInstanceAs (Decidable True)

instance (c : Operators) : (a : Action Fate PolicyReq) → Decidable (Validated c a)
  | .start _ => inferInstanceAs (Decidable True)
  | .run i fate => inferInstanceAs (Decidable (ValidatedCall c i fate (c.next i)))
  | .crash _ => inferInstanceAs (Decidable True)

/-- A draft with two recipients of 60 and 40. -/
def drafted : List (Action Fate PolicyReq) :=
  [.start .createDraft, .run 0 .answered, .start (.addRecipient 0 1 60), .run 1 .answered,
    .start (.addRecipient 0 2 40), .run 2 .answered]

/-- It is published and retired. -/
def publishedAndRetired : List (Action Fate PolicyReq) :=
  drafted ++ .start (.publish 0) :: List.replicate 3 (.run 3 .answered) ++
    .start (.retire 0) :: List.replicate 3 (.run 4 .answered)

/-- The policy of the sample is published and retired. -/
theorem policies_partition_sample :
    Config.Along policySystem Validated (.init []) publishedAndRetired ∧
      Config.Along policySystem MovesOn (.init []) publishedAndRetired ∧
      (Config.exec policySystem (.init []) publishedAndRetired).store.map PolicyRow.status =
        [.RETIRED] := by
  have hall : Config.Along policySystem Validated (.init []) publishedAndRetired ∧
      (Config.exec policySystem (.init []) publishedAndRetired).store.map PolicyRow.status =
        [.RETIRED] := by decide +kernel
  exact ⟨hall.1, (policies_partition publishedAndRetired hall.1).2, hall.2⟩

/-- A recipient of weight 10 is added between the validation of a publication and its
update. -/
def addedLate : List (Action Fate PolicyReq) :=
  drafted ++ .start (.publish 0) :: List.replicate 2 (.run 3 .answered) ++
    [.start (.addRecipient 0 3 10), .run 4 .answered, .run 3 .answered]

/-- The published weights sum to 110. -/
theorem recipient_added_late : ¬ ∀ as : List (Action Fate PolicyReq),
    (∀ (id : ℕ) (row : PolicyRow), (Config.exec policySystem (.init []) as).store[id]? = some row →
      row.status ≠ .DRAFT → row.Partition) ∧
      Config.Along policySystem MovesOn (.init []) as := by
  intro h
  have hrow : (Config.exec policySystem (.init []) addedLate).store[0]? =
      some ⟨.PUBLISHED, [⟨1, 60⟩, ⟨2, 40⟩, ⟨3, 10⟩]⟩ := by decide +kernel
  have hwhole := ((h addedLate).1 0 _ hrow nofun).whole
  norm_num at hwhole

end Sails.Policy
