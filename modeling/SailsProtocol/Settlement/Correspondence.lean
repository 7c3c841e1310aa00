import SailsProtocol.Settlement.Guard

/-!
# Correspondence after the broadcast

After a settlement transaction is broadcast its outputs are compared with the outcome
once more (`dispute-correspondence.ts`). For each entry of the destination binding the
first output at its address is the observation of the entry's beneficiary, and every
observation is compared with the share over the total observed.

`allMatch_iff` says when every beneficiary matches. The guard looks a destination up by
the first entry of a beneficiary and an output by address and amount, this check by the
last entry and by address alone. `guard_agrees_iff` : the two agree on an outcome
exactly when no beneficiary has two entries that differ and no two beneficiaries share a
destination.
-/

namespace Sails.Settlement

/-! ## Maps -/

/-- A map, by what it holds at a key. -/
abbrev ReadonlyMap (α : Type) := String → Option α

namespace ReadonlyMap

variable {α β : Type}

/-- `new Map()`. -/
def empty : ReadonlyMap α := fun _ => none

/-- `map.set(key, value)`. -/
def set (m : ReadonlyMap α) (key : String) (value : α) : ReadonlyMap α :=
  fun k => if k = key then some value else m k

/-- The map a loop fills, one entry for each item. -/
def fill (l : List β) (key : β → String) (value : β → α) : ReadonlyMap α :=
  l.foldl (fun m b => m.set (key b) (value b)) empty

/-- The last item with a key is the one that stays. -/
theorem fill_apply (l : List β) (key : β → String) (value : β → α) (k : String) :
    fill l key value k = (l.reverse.find? fun b => key b = k).map value := by
  induction l using List.reverseRecOn with
  | nil => rfl
  | append_singleton l b ih =>
    rw [fill, List.foldl_append, List.reverse_append, List.reverse_singleton]
    simp only [List.foldl_cons, List.foldl_nil, List.singleton_append, List.find?_cons, set]
    by_cases h : k = key b
    · simp [h]
    · rw [if_neg h, decide_eq_false (Ne.symm h)]
      exact ih

/-- With distinct keys every item stays. -/
theorem fill_of_mem {l : List β} {key : β → String} (value : β → α) (h : (l.map key).Nodup)
    {b : β} (hb : b ∈ l) : fill l key value (key b) = some (value b) := by
  rw [fill_apply]
  cases hfind : l.reverse.find? fun c => key c = key b with
  | none => simpa using List.find?_eq_none.mp hfind b (List.mem_reverse.mpr hb)
  | some c =>
    have hmem := List.mem_reverse.mp (List.mem_of_find?_eq_some hfind)
    have hkey : key c = key b := by simpa using List.find?_some hfind
    rw [List.inj_on_of_nodup_map h hmem hb hkey, Option.map_some]

end ReadonlyMap

/-! ## The evaluator -/

/-- `ExecutionEvidenceStatus`. -/
inductive ExecutionEvidenceStatus where
  | OBSERVED
  | AWAITED
  | IRRESOLVABLE
  deriving DecidableEq, Repr

/-- `ExecutionObservation`. -/
structure ExecutionObservation where
  status : ExecutionEvidenceStatus
  destinationReference : Option String
  amount : Option ℤ
  asset : Option String
  deriving DecidableEq, Repr

/-- `CorrespondenceResult`. -/
inductive CorrespondenceResult where
  | MATCH
  | DIVERGENT
  | PENDING
  | UNKNOWN
  deriving DecidableEq, Repr

/-- The check of one dimension ; one that was not authorised is not checked. -/
def checkDimension {α : Type} [DecidableEq α] (authorized observed : Option α) :
    List CorrespondenceResult :=
  match authorized, observed with
  | none, _ => []
  | some _, none => [.UNKNOWN]
  | some a, some o => if o = a then [.MATCH] else [.DIVERGENT]

/-- `referenceDestinationCorrespondenceEvaluator`. -/
def evaluateSettlementCorrespondence (authorizedDestination : Option String)
    (authorizedAmount : Option ℤ) (authorizedAsset : Option String)
    (observation : ExecutionObservation) : CorrespondenceResult :=
  match observation.status with
  | .AWAITED => .PENDING
  | .IRRESOLVABLE => .UNKNOWN
  | .OBSERVED =>
    let checks := checkDimension authorizedDestination observation.destinationReference ++
      checkDimension authorizedAmount observation.amount ++
      checkDimension authorizedAsset observation.asset
    if CorrespondenceResult.DIVERGENT ∈ checks then .DIVERGENT
    else if CorrespondenceResult.UNKNOWN ∈ checks then .UNKNOWN
    else .MATCH

/-- The observation of a payment that cannot be told. -/
def irresolvable : ExecutionObservation :=
  ⟨.IRRESOLVABLE, none, none, none⟩

/-! ## Observations of a transaction -/

/-- The observation an entry of the destination binding gets. -/
def observe (asset : String) (realOutputs : List TxOutput) (d : BeneficiaryDestination) :
    ExecutionObservation :=
  match realOutputs.find? fun o => o.address = some d.destination with
  | some o => ⟨.OBSERVED, o.address, some o.value, some asset⟩
  | none => irresolvable

/-- `none` stands for a transaction that does not decode. -/
def buildExecutionObservationsFromFinalizedTransaction (tx : Option (List TxOutput))
    (outcome : Outcome) : ReadonlyMap ExecutionObservation :=
  match tx with
  | none =>
    .fill outcome.destinations BeneficiaryDestination.beneficiary fun _ => irresolvable
  | some realOutputs =>
    .fill outcome.destinations BeneficiaryDestination.beneficiary
      (observe outcome.content.asset realOutputs)

/-- The result of one beneficiary, against an amount of units. -/
def evaluateLeg (outcome : Outcome) (observations : ReadonlyMap ExecutionObservation)
    (exp : Allotment) : CorrespondenceResult :=
  let authorizedDestination :=
    (outcome.destinations.find? fun d => d.beneficiary = exp.beneficiary).map
      BeneficiaryDestination.destination
  let observation := (observations exp.beneficiary).getD irresolvable
  evaluateSettlementCorrespondence authorizedDestination (some exp.units)
    (some outcome.content.asset) observation

/-- `evaluateOutcomeCorrespondence`. -/
def evaluateOutcomeCorrespondence (outcome : Outcome)
    (observations : ReadonlyMap ExecutionObservation) :
    Except ContentError (ReadonlyMap CorrespondenceResult) :=
  match allocateExactUnitsOverTotal outcome.content outcome.content.totalUnits with
  | .error e => .error e
  | .ok units => .ok (.fill units Allotment.beneficiary (evaluateLeg outcome observations))

/-- The amount observed for a beneficiary. -/
def observedAmount (observations : ReadonlyMap ExecutionObservation) (beneficiary : String) :
    Option ℤ :=
  match observations beneficiary with
  | some obs => if obs.status = .OBSERVED then obs.amount else none
  | none => none

/-- `evaluateOutcomeCorrespondenceWithExecutionCost`. -/
def evaluateOutcomeCorrespondenceWithExecutionCost (policy : CostPolicy) (outcome : Outcome)
    (observations : ReadonlyMap ExecutionObservation) :
    Except ContentError (ReadonlyMap CorrespondenceResult) :=
  let allocations := outcome.content.allocations
  match allocations.all fun a => (observedAmount observations a.beneficiary).isSome with
  | false => evaluateOutcomeCorrespondence outcome observations
  | true =>
    let deliveredTotal :=
      (allocations.map fun a => (observedAmount observations a.beneficiary).getD 0).sum
    match deriveDistributableTotal policy outcome.content.totalUnits deliveredTotal
        allocations.length with
    | .error _ =>
      .ok (.fill allocations AllocationInput.beneficiary fun _ => .DIVERGENT)
    | .ok (distributable, _) =>
      match allocateExactUnitsOverTotal outcome.content distributable with
      | .error e => .error e
      | .ok expected =>
        .ok (.fill expected Allotment.beneficiary (evaluateLeg outcome observations))

/-- `evaluateFinalizedTransactionCorrespondence`. -/
def evaluateFinalizedTransactionCorrespondence (policy : CostPolicy)
    (tx : Option (List TxOutput)) (outcome : Outcome) :
    Except ContentError (ReadonlyMap CorrespondenceResult) :=
  evaluateOutcomeCorrespondenceWithExecutionCost policy outcome
    (buildExecutionObservationsFromFinalizedTransaction tx outcome)

/-- Every beneficiary of the outcome matches. -/
def AllMatch (policy : CostPolicy) (outcome : ArbitrationOutcome) (outputs : List TxOutput) :
    Prop :=
  ∃ results, evaluateFinalizedTransactionCorrespondence policy (some outputs)
      outcome.toOutcome = .ok results ∧
    ∀ b ∈ outcome.content.beneficiaries, results b = some .MATCH

/-! ## When every beneficiary matches -/

namespace ArbitrationOutcome

variable (outcome : ArbitrationOutcome)

/-- The destination the observations are made at. -/
def lastDestinationOf (beneficiary : String) : String :=
  ((outcome.destinations.reverse.find? fun d => d.beneficiary = beneficiary).map
    BeneficiaryDestination.destination).getD ""

end ArbitrationOutcome

/-- The first output at an address. -/
def firstAt (outputs : List TxOutput) (destination : String) : Option TxOutput :=
  outputs.find? fun o => o.address = some destination

theorem address_of_firstAt {outputs : List TxOutput} {destination : String} {o : TxOutput}
    (h : firstAt outputs destination = some o) : o.address = some destination := by
  simpa using List.find?_some h

section Observations

variable {outcome : ArbitrationOutcome} {outputs : List TxOutput}

/-- The observations of the outputs of a transaction. -/
abbrev observed (outcome : ArbitrationOutcome) (outputs : List TxOutput) :
    ReadonlyMap ExecutionObservation :=
  buildExecutionObservationsFromFinalizedTransaction (some outputs) outcome.toOutcome

/-- What is observed for a beneficiary. -/
theorem observed_apply {b : String} (hb : b ∈ outcome.content.beneficiaries) :
    observed outcome outputs b =
      some (observe outcome.content.asset outputs ⟨b, outcome.lastDestinationOf b⟩) := by
  obtain ⟨a, ha, rfl⟩ := List.mem_map.mp hb
  obtain ⟨d, hd, heq⟩ := List.mem_map.mp (outcome.bound a ha)
  simp only [observed, buildExecutionObservationsFromFinalizedTransaction,
    ReadonlyMap.fill_apply, ArbitrationOutcome.toOutcome_destinations]
  cases hfind : outcome.destinations.reverse.find? fun d => d.beneficiary = a.beneficiary with
  | none => simpa [heq] using List.find?_eq_none.mp hfind d (List.mem_reverse.mpr hd)
  | some d' => simp [observe, ArbitrationOutcome.lastDestinationOf, hfind]

theorem observedAmount_eq {b : String} (hb : b ∈ outcome.content.beneficiaries) :
    observedAmount (observed outcome outputs) b =
      (firstAt outputs (outcome.lastDestinationOf b)).map fun o => (o.value : ℤ) := by
  rw [observedAmount, observed_apply hb, observe, firstAt]
  cases h : outputs.find? fun o => o.address = some (outcome.lastDestinationOf b) with
  | none => simp [irresolvable]
  | some o => simp

variable (outputs) in
/-- A beneficiary matches when the first output at its last destination is the payment. -/
theorem evaluateLeg_eq_match_iff {exp : Allotment}
    (hb : exp.beneficiary ∈ outcome.content.beneficiaries) (hunits : 0 ≤ exp.units) :
    evaluateLeg outcome.toOutcome (observed outcome outputs) exp = .MATCH ↔
      outcome.lastDestinationOf exp.beneficiary = outcome.destinationOf exp.beneficiary ∧
        firstAt outputs (outcome.destinationOf exp.beneficiary) = some (outcome.payment exp) := by
  obtain ⟨d, hfind, hd⟩ := ArbitrationOutcome.find_destination hb
  simp only [evaluateLeg, observed_apply hb, Option.getD_some,
    ArbitrationOutcome.toOutcome_destinations, ArbitrationOutcome.toOutcome_content, hfind,
    Option.map_some, hd, observe]
  cases hfirst : outputs.find? fun o =>
      o.address = some (outcome.lastDestinationOf exp.beneficiary) with
  | none =>
    simp only [evaluateSettlementCorrespondence, irresolvable, reduceCtorEq, false_iff]
    rintro ⟨hlast, hsome⟩
    rw [← hlast, firstAt, hfirst] at hsome
    cases hsome
  | some o =>
    have haddress := address_of_firstAt hfirst
    simp only [evaluateSettlementCorrespondence, checkDimension, haddress]
    constructor
    · intro h
      have hlast : outcome.lastDestinationOf exp.beneficiary =
          outcome.destinationOf exp.beneficiary := by
        by_contra hne
        simp [hne] at h
      have hvalue : (o.value : ℤ) = exp.units := by
        by_contra hne
        simp [hne] at h
      refine ⟨hlast, ?_⟩
      rw [← hlast, firstAt, hfirst, ArbitrationOutcome.payment, ← hlast, ← haddress, ← hvalue,
        Int.toNat_natCast]
    · rintro ⟨hlast, hsome⟩
      rw [← hlast, firstAt, hfirst, Option.some.injEq] at hsome
      have hvalue : (o.value : ℤ) = exp.units := by
        rw [hsome]
        exact Int.toNat_of_nonneg hunits
      simp [hlast, hvalue]

end Observations

/-- The first output at the destination of every beneficiary is its payment. -/
def FirstPays (outcome : ArbitrationOutcome) (outputs : List TxOutput) (total : ℤ) : Prop :=
  ∀ exp ∈ outcome.content.allotments total,
    outcome.lastDestinationOf exp.beneficiary = outcome.destinationOf exp.beneficiary ∧
      firstAt outputs (outcome.destinationOf exp.beneficiary) = some (outcome.payment exp)

theorem nodup_allotments (outcome : ArbitrationOutcome) (total : ℤ) :
    ((outcome.content.allotments total).map Allotment.beneficiary).Nodup :=
  (ArbitrationOutcomeContent.perm_allotments outcome.wellFormed total).nodup_iff.mpr
    outcome.wellFormed.distinct

theorem exists_allotment (outcome : ArbitrationOutcome) (total : ℤ) {b : String}
    (hb : b ∈ outcome.content.beneficiaries) :
    ∃ exp ∈ outcome.content.allotments total, exp.beneficiary = b :=
  List.mem_map.mp
    ((ArbitrationOutcomeContent.perm_allotments outcome.wellFormed total).mem_iff.mpr hb)

/-- All results of a comparison with allotments are matches. -/
theorem fill_all_match_iff {outcome : ArbitrationOutcome} {outputs : List TxOutput} {total : ℤ}
    (ht : 0 ≤ total) :
    (∀ b ∈ outcome.content.beneficiaries,
      ReadonlyMap.fill (outcome.content.allotments total) Allotment.beneficiary
        (evaluateLeg outcome.toOutcome (observed outcome outputs)) b = some .MATCH) ↔
      FirstPays outcome outputs total := by
  have hleg : ∀ exp ∈ outcome.content.allotments total, _ := fun exp hexp =>
    evaluateLeg_eq_match_iff outputs
      (ArbitrationOutcome.beneficiary_mem_of_mem_allotments hexp)
      (ArbitrationOutcomeContent.units_nonneg outcome.wellFormed ht exp hexp)
  constructor
  · intro h exp hexp
    have := h _ (ArbitrationOutcome.beneficiary_mem_of_mem_allotments hexp)
    rw [ReadonlyMap.fill_of_mem _ (nodup_allotments outcome total) hexp, Option.some.injEq] at this
    exact (hleg exp hexp).mp this
  · intro h b hb
    obtain ⟨exp, hexp, rfl⟩ := exists_allotment outcome total hb
    rw [ReadonlyMap.fill_of_mem _ (nodup_allotments outcome total) hexp, Option.some.injEq]
    exact (hleg exp hexp).mpr (h exp hexp)

/-- What the beneficiaries are seen to get, when all of them are. -/
theorem delivered_eq {outcome : ArbitrationOutcome} {outputs : List TxOutput} {total : ℤ}
    (ht : 0 ≤ total) (h : FirstPays outcome outputs total) :
    (outcome.content.allocations.map fun a =>
      (observedAmount (observed outcome outputs) a.beneficiary).getD 0).sum = total := by
  have hamount : ∀ exp ∈ outcome.content.allotments total,
      (observedAmount (observed outcome outputs) exp.beneficiary).getD 0 = exp.units := by
    intro exp hexp
    obtain ⟨hlast, hfirst⟩ := h exp hexp
    rw [observedAmount_eq (ArbitrationOutcome.beneficiary_mem_of_mem_allotments hexp), hlast,
      hfirst]
    exact Int.toNat_of_nonneg
      (ArbitrationOutcomeContent.units_nonneg outcome.wellFormed ht exp hexp)
  have hperm := (ArbitrationOutcomeContent.perm_allotments outcome.wellFormed total).map
    fun b => (observedAmount (observed outcome outputs) b).getD 0
  calc (outcome.content.allocations.map fun a =>
        (observedAmount (observed outcome outputs) a.beneficiary).getD 0).sum
      = (outcome.content.beneficiaries.map fun b =>
          (observedAmount (observed outcome outputs) b).getD 0).sum := by
        rw [ArbitrationOutcomeContent.beneficiaries, List.map_map]
        rfl
    _ = ((outcome.content.allotments total).map Allotment.units).sum := by
        rw [← hperm.sum_eq, List.map_map]
        exact congrArg List.sum (List.map_congr_left hamount)
    _ = total := ArbitrationOutcomeContent.sum_units _ _

/-- Every amount observed is one of an output. -/
theorem observedAmount_getD_nonneg {outcome : ArbitrationOutcome} {outputs : List TxOutput}
    {b : String} (hb : b ∈ outcome.content.beneficiaries) :
    0 ≤ (observedAmount (observed outcome outputs) b).getD 0 := by
  rw [observedAmount_eq hb]
  cases firstAt outputs (outcome.lastDestinationOf b) with
  | none => exact le_rfl
  | some o => exact Int.natCast_nonneg o.value

/-- When every payment matches. -/
theorem allMatch_iff (policy : CostPolicy) (outcome : ArbitrationOutcome)
    (outputs : List TxOutput) : AllMatch policy outcome outputs ↔
      ∃ total : ℕ, outcome.content.Deliverable policy total ∧ FirstPays outcome outputs total := by
  have halloc := allocateExactUnitsOverTotal_eq outcome.wellFormed
  constructor
  · rintro ⟨results, heval, hall⟩
    change evaluateOutcomeCorrespondenceWithExecutionCost policy outcome.toOutcome
      (observed outcome outputs) = .ok results at heval
    simp only [evaluateOutcomeCorrespondenceWithExecutionCost,
      ArbitrationOutcome.toOutcome_content] at heval
    cases hobs : outcome.content.allocations.all fun a =>
        (observedAmount (observed outcome outputs) a.beneficiary).isSome with
    | false =>
      simp only [hobs, evaluateOutcomeCorrespondence, ArbitrationOutcome.toOutcome_content,
        halloc, Except.ok.injEq] at heval
      rw [← heval] at hall
      exact ⟨_, outcome.content.deliverable_totalUnits policy,
        (fill_all_match_iff (Int.natCast_nonneg _)).mp hall⟩
    | true =>
      simp only [hobs] at heval
      set delivered := (outcome.content.allocations.map fun a =>
        (observedAmount (observed outcome outputs) a.beneficiary).getD 0).sum with hdelivered
      have hnonneg : 0 ≤ delivered := by
        refine List.sum_nonneg fun x hx => ?_
        obtain ⟨a, ha, rfl⟩ := List.mem_map.mp hx
        exact observedAmount_getD_nonneg (List.mem_map_of_mem ha)
      cases hderive : deriveDistributableTotal policy outcome.content.totalUnits delivered
          outcome.content.allocations.length with
      | error e =>
        simp only [hderive, Except.ok.injEq] at heval
        obtain ⟨a, ha⟩ := List.exists_mem_of_ne_nil _ outcome.wellFormed.nonempty
        have := hall a.beneficiary (List.mem_map_of_mem ha)
        rw [← heval, ReadonlyMap.fill_of_mem _ outcome.wellFormed.distinct ha] at this
        cases this
      | ok d =>
        have hdel := deliverable_of_derive hderive
        simp only [deriveDistributableTotal_eq _ _ _ hdel, halloc, Except.ok.injEq] at heval
        rw [← heval] at hall
        have hpays := (fill_all_match_iff hnonneg).mp hall
        obtain ⟨n, hn⟩ := Int.eq_ofNat_of_zero_le hnonneg
        rw [hn] at hdel hpays
        exact ⟨n, hdel, hpays⟩
  · rintro ⟨total, hdel, hpays⟩
    refine ⟨_, ?_, (fill_all_match_iff (Int.natCast_nonneg total)).mpr hpays⟩
    have hobs : (outcome.content.allocations.all fun a =>
        (observedAmount (observed outcome outputs) a.beneficiary).isSome) = true := by
      refine List.all_eq_true.mpr fun a ha => ?_
      have hb : a.beneficiary ∈ outcome.content.beneficiaries := List.mem_map_of_mem ha
      obtain ⟨exp, hexp, heq⟩ := exists_allotment outcome total hb
      obtain ⟨hlast, hfirst⟩ := hpays exp hexp
      rw [observedAmount_eq hb, ← heq, hlast, hfirst]
      rfl
    change evaluateOutcomeCorrespondenceWithExecutionCost policy outcome.toOutcome
      (observed outcome outputs) = _
    simp only [evaluateOutcomeCorrespondenceWithExecutionCost,
      ArbitrationOutcome.toOutcome_content, hobs, delivered_eq (Int.natCast_nonneg total) hpays,
      deriveDistributableTotal_eq _ _ _ hdel, halloc]

/-! ## The guard and the correspondence -/

/-- The guard and the correspondence agree on every transaction : what the guard accepts
matches, and what matches with one output for each beneficiary is accepted, whatever
input covers it. -/
structure GuardAgrees (policy : CostPolicy) (outcome : ArbitrationOutcome) : Prop where
  matched : ∀ psbt declaredMinerFeeSats,
    Accepts policy (.ok psbt) outcome.toOutcome declaredMinerFeeSats →
      AllMatch policy outcome psbt.txOutputs
  accepted : ∀ outputs (inputValue : ℕ) (declaredMinerFeeSats : Option ℤ),
    outputTotal outputs ≤ inputValue →
    (∀ fee, declaredMinerFeeSats = some fee → fee = inputValue - outputTotal outputs) →
    AllMatch policy outcome outputs →
    outputs.length = outcome.content.allocations.length →
      Accepts policy (.ok ⟨some inputValue, outputs⟩) outcome.toOutcome declaredMinerFeeSats

/-- Every beneficiary has one destination, and no two have the same. -/
structure OneDestinationEach (outcome : ArbitrationOutcome) : Prop where
  single : ∀ b ∈ outcome.content.beneficiaries,
    outcome.lastDestinationOf b = outcome.destinationOf b
  distinct : (outcome.content.beneficiaries.map outcome.destinationOf).Nodup

section Agree

variable {policy : CostPolicy} {outcome : ArbitrationOutcome}

/-- With distinct destinations a payment is known by its address. -/
theorem payment_unique (h : OneDestinationEach outcome) {total : ℤ} {exp exp' : Allotment}
    (he : exp ∈ outcome.content.allotments total) (he' : exp' ∈ outcome.content.allotments total)
    (hdest : outcome.destinationOf exp.beneficiary = outcome.destinationOf exp'.beneficiary) :
    exp = exp' := by
  have hb := List.inj_on_of_nodup_map h.distinct
    (ArbitrationOutcome.beneficiary_mem_of_mem_allotments he)
    (ArbitrationOutcome.beneficiary_mem_of_mem_allotments he') hdest
  exact List.inj_on_of_nodup_map (nodup_allotments outcome total) he he' hb

theorem nodup_payments (h : OneDestinationEach outcome) (total : ℤ) :
    (outcome.payments total).Nodup := by
  refine List.Nodup.map_on ?_ ((nodup_allotments outcome total).of_map _)
  intro exp he exp' he' heq
  refine payment_unique h he he' ?_
  simpa [ArbitrationOutcome.payment] using congrArg TxOutput.address heq

/-- In a rearrangement of the payments the first output at a destination is the payment
to it. -/
theorem firstPays_of_perm (h : OneDestinationEach outcome) {total : ℤ} {outputs : List TxOutput}
    (hperm : outputs.Perm (outcome.payments total)) : FirstPays outcome outputs total := by
  intro exp hexp
  refine ⟨h.single _ (ArbitrationOutcome.beneficiary_mem_of_mem_allotments hexp), ?_⟩
  cases hfirst : firstAt outputs (outcome.destinationOf exp.beneficiary) with
  | none =>
    have := List.find?_eq_none.mp hfirst (outcome.payment exp)
      (hperm.mem_iff.mpr (List.mem_map_of_mem hexp))
    simp [ArbitrationOutcome.payment] at this
  | some o =>
    obtain ⟨exp', hexp', rfl⟩ := List.mem_map.mp
      (hperm.mem_iff.mp (List.mem_of_find?_eq_some hfirst))
    have haddress := address_of_firstAt hfirst
    simp only [ArbitrationOutcome.payment, Option.some.injEq] at haddress
    rw [payment_unique h hexp' hexp haddress]

theorem payments_subset_of_firstPays {total : ℤ} {outputs : List TxOutput}
    (h : FirstPays outcome outputs total) : outcome.payments total ⊆ outputs := by
  intro o ho
  obtain ⟨exp, hexp, rfl⟩ := List.mem_map.mp ho
  exact List.mem_of_find?_eq_some (h exp hexp).2

/-- With a destination each, the two evaluators agree. -/
theorem guardAgrees_of_oneDestinationEach (h : OneDestinationEach outcome) :
    GuardAgrees policy outcome where
  matched psbt declared haccepts := by
    obtain ⟨_, heq, htrans⟩ := (accepts_iff policy _ outcome declared).mp haccepts
    cases heq
    have hperm := perm_payments_of_nodup htrans (nodup_payments h _)
    exact (allMatch_iff _ _ _).mpr ⟨_, htrans.deliverable, firstPays_of_perm h hperm⟩
  accepted outputs inputValue declared hle hfee hmatch hcount := by
    obtain ⟨total, hdel, hpays⟩ := (allMatch_iff _ _ _).mp hmatch
    have hsub := payments_subset_of_firstPays hpays
    have hperm : (outcome.payments total).Perm outputs :=
      (List.subperm_of_subset (nodup_payments h total) hsub).perm_of_length_le
        (by rw [hcount, ArbitrationOutcome.length_payments])
    have htotal : outputTotal outputs = total := by
      rw [← outputTotal_perm hperm, ArbitrationOutcome.outputTotal_payments]
    exact (accepts_iff policy _ outcome declared).mpr ⟨_, rfl, ⟨inputValue, rfl, hle, hfee⟩,
      by simpa [htotal] using hdel, by simpa [htotal] using hsub, hcount⟩

/-! Conversely, the payments of the whole amount, with the larger of two outputs at one
address first, show what the two checks disagree about. -/

/-- The payments over the authorised total are accepted in any order. -/
theorem accepts_of_perm_payments {outputs : List TxOutput}
    (hperm : outputs.Perm (outcome.payments outcome.content.totalUnits)) :
    Accepts policy (.ok ⟨some outcome.content.totalUnits, outputs⟩) outcome.toOutcome none := by
  have htotal : outputTotal outputs = outcome.content.totalUnits := by
    rw [outputTotal_perm hperm, ArbitrationOutcome.outputTotal_payments]
  refine (accepts_iff policy _ outcome none).mpr
    ⟨_, rfl, ⟨_, rfl, htotal.le, by simp⟩, ?_, ?_, ?_⟩
  · rw [htotal]
    exact outcome.content.deliverable_totalUnits policy
  · rw [htotal]
    exact hperm.symm.subset
  · rw [hperm.length_eq, ArbitrationOutcome.length_payments]

/-- The outputs with the larger values first. -/
def largestFirst (outputs : List TxOutput) : List TxOutput :=
  outputs.mergeSort fun a b => decide (b.value ≤ a.value)

theorem largestFirst_perm (outputs : List TxOutput) : (largestFirst outputs).Perm outputs :=
  List.mergeSort_perm _ _

/-- The outputs are in falling order. -/
theorem pairwise_largestFirst (outputs : List TxOutput) :
    (largestFirst outputs).Pairwise fun a b => b.value ≤ a.value := by
  have := @List.pairwise_mergeSort _ (fun a b : TxOutput => decide (b.value ≤ a.value))
    (fun a b c hab hbc => by
      simp only [decide_eq_true_eq] at hab hbc ⊢
      exact hbc.trans hab)
    (fun a b => by
      simp only [Bool.or_eq_true, decide_eq_true_eq]
      exact le_total _ _) outputs
  simpa only [decide_eq_true_eq, largestFirst] using this

/-- The first of the outputs that satisfy a test is the largest of them. -/
theorem value_le_of_find {p : TxOutput → Bool} {o o' : TxOutput} : ∀ {outputs : List TxOutput},
    outputs.Pairwise (fun a b => b.value ≤ a.value) → outputs.find? p = some o →
      o' ∈ outputs → p o' = true → o'.value ≤ o.value
  | [], _, h, _, _ => by simp at h
  | a :: rest, hsorted, hfind, hmem, hp => by
    rw [List.find?_cons] at hfind
    cases ha : p a with
    | true =>
      simp only [ha, Option.some.injEq] at hfind
      subst hfind
      rcases List.mem_cons.mp hmem with rfl | hmem
      · exact le_rfl
      · exact (List.pairwise_cons.mp hsorted).1 _ hmem
    | false =>
      simp only [ha] at hfind
      rcases List.mem_cons.mp hmem with rfl | hmem
      · simp [ha] at hp
      · exact value_le_of_find (List.pairwise_cons.mp hsorted).2 hfind hmem hp

/-- Two totals are divided among the same beneficiaries in the same order. -/
theorem forall₂_allotments (content : ArbitrationOutcomeContent) (total total' : ℤ) :
    List.Forall₂ (fun exp exp' : Allotment => exp.beneficiary = exp'.beneficiary)
      (content.allotments total) (content.allotments total') := by
  refine List.rel_append ?_ (.cons rfl .nil)
  rw [List.forall₂_map_left_iff, List.forall₂_map_right_iff]
  exact List.forall₂_same.mpr fun _ _ => rfl

/-- Smaller allotments add up to less. -/
theorem sum_units_le {l l' : List Allotment}
    (h : List.Forall₂ (fun exp exp' => exp.beneficiary = exp'.beneficiary) l l')
    (hle : ∀ exp ∈ l, ∀ exp' ∈ l', exp.beneficiary = exp'.beneficiary → exp.units ≤ exp'.units) :
    (l.map Allotment.units).sum ≤ (l'.map Allotment.units).sum := by
  induction h with
  | nil => exact le_rfl
  | cons hab _ ih =>
    have hhead := hle _ List.mem_cons_self _ List.mem_cons_self hab
    have htail := ih fun exp he exp' he' =>
      hle exp (List.mem_cons_of_mem _ he) exp' (List.mem_cons_of_mem _ he')
    simpa using add_le_add hhead htail

/-- When the payments, larger ones first, all match, they match as they are owed : what
is seen at a destination is at least what is owed there, and not more than all of it is
seen in total. -/
theorem firstPays_largestFirst (h : GuardAgrees policy outcome) :
    FirstPays outcome (largestFirst (outcome.payments outcome.content.totalUnits))
      outcome.content.totalUnits := by
  set outputs := largestFirst (outcome.payments outcome.content.totalUnits) with houtputs
  have hperm : outputs.Perm _ := largestFirst_perm _
  obtain ⟨total, hdel, hpays⟩ := (allMatch_iff _ _ _).mp
    (h.matched _ none (accepts_of_perm_payments hperm))
  have hle : (outcome.content.totalUnits : ℤ) ≤ total := by
    have hsum := sum_units_le
      (forall₂_allotments outcome.content outcome.content.totalUnits total) ?_
    · simpa [ArbitrationOutcomeContent.sum_units] using hsum
    intro exp hexp exp' hexp' hb
    obtain ⟨-, hfirst⟩ := hpays exp' hexp'
    have hvalue : (outcome.payment exp).value ≤ (outcome.payment exp').value :=
      value_le_of_find (pairwise_largestFirst _) hfirst
        (hperm.mem_iff.mpr (List.mem_map_of_mem hexp))
        (by simp [ArbitrationOutcome.payment, hb])
    have hnonneg := ArbitrationOutcomeContent.units_nonneg outcome.wellFormed
      (Int.natCast_nonneg outcome.content.totalUnits) exp hexp
    have hnonneg' := ArbitrationOutcomeContent.units_nonneg outcome.wellFormed
      (Int.natCast_nonneg total) exp' hexp'
    simp only [ArbitrationOutcome.payment] at hvalue
    omega
  have htotal : total = outcome.content.totalUnits := by
    have := hdel.1
    omega
  rwa [htotal] at hpays

/-- Payments to one destination are equal then. -/
theorem payment_eq_of_destination {outputs : List TxOutput} {total : ℤ}
    (h : FirstPays outcome outputs total) {exp exp' : Allotment}
    (he : exp ∈ outcome.content.allotments total) (he' : exp' ∈ outcome.content.allotments total)
    (hdest : outcome.destinationOf exp.beneficiary = outcome.destinationOf exp'.beneficiary) :
    outcome.payment exp = outcome.payment exp' := by
  have := (h exp he).2
  rw [hdest, (h exp' he').2] at this
  exact (Option.some.inj this).symm

/-- One of two equal payments, replaced by a larger output elsewhere. -/
def overpaid (outcome : ArbitrationOutcome) (o : TxOutput) : List TxOutput :=
  ⟨none, o.value + 1⟩ :: (outcome.payments outcome.content.totalUnits).erase o

/-- An overpaid duplicate still pays every beneficiary first. -/
theorem firstPays_overpaid {outputs : List TxOutput} {o : TxOutput}
    (h : FirstPays outcome outputs outcome.content.totalUnits)
    (hdup : (outcome.payments outcome.content.totalUnits).Duplicate o) :
    FirstPays outcome (overpaid outcome o) outcome.content.totalUnits := by
  intro exp hexp
  refine ⟨(h exp hexp).1, ?_⟩
  cases hfirst : firstAt (overpaid outcome o) (outcome.destinationOf exp.beneficiary) with
  | none =>
    have hmem : outcome.payment exp ∈ overpaid outcome o :=
      List.mem_cons_of_mem _ (mem_erase_of_duplicate hdup (List.mem_map_of_mem hexp))
    have := List.find?_eq_none.mp hfirst _ hmem
    simp [ArbitrationOutcome.payment] at this
  | some o' =>
    have haddress := address_of_firstAt hfirst
    rcases List.mem_cons.mp (List.mem_of_find?_eq_some hfirst) with rfl | hmem
    · cases haddress
    · obtain ⟨exp', hexp', rfl⟩ := List.mem_map.mp (List.mem_of_mem_erase hmem)
      simp only [ArbitrationOutcome.payment, Option.some.injEq] at haddress
      rw [payment_eq_of_destination h hexp' hexp haddress]

/-- Evaluators that agree have no two equal payments. -/
theorem nodup_payments_of_guardAgrees (h : GuardAgrees policy outcome) :
    (outcome.payments outcome.content.totalUnits).Nodup := by
  by_contra hnodup
  obtain ⟨o, hdup⟩ := List.exists_duplicate_iff_not_nodup.mpr hnodup
  have hperm := List.perm_cons_erase hdup.mem
  have htotal : outputTotal (overpaid outcome o) = outcome.content.totalUnits + 1 := by
    have := outputTotal_perm hperm
    rw [ArbitrationOutcome.outputTotal_payments] at this
    simp only [outputTotal, overpaid, List.map_cons, List.sum_cons] at this ⊢
    omega
  have hcount : (overpaid outcome o).length = outcome.content.allocations.length := by
    have := hperm.length_eq
    rw [ArbitrationOutcome.length_payments] at this
    rw [this]
    rfl
  have haccepts := h.accepted (overpaid outcome o) (outcome.content.totalUnits + 1) none
    htotal.le (by simp) ((allMatch_iff _ _ _).mpr
      ⟨_, outcome.content.deliverable_totalUnits policy,
        firstPays_overpaid (firstPays_largestFirst h) hdup⟩) hcount
  obtain ⟨_, heq, htrans⟩ := (accepts_iff policy _ outcome none).mp haccepts
  cases heq
  have := htrans.deliverable.1
  rw [htotal] at this
  push_cast at this
  omega

/-- Evaluators that agree have a destination each. -/
theorem oneDestinationEach_of_guardAgrees (h : GuardAgrees policy outcome) :
    OneDestinationEach outcome := by
  have hpays := firstPays_largestFirst h
  refine ⟨fun b hb => ?_, ?_⟩
  · obtain ⟨exp, hexp, rfl⟩ := exists_allotment outcome outcome.content.totalUnits hb
    exact (hpays exp hexp).1
  · have hperm := (ArbitrationOutcomeContent.perm_allotments outcome.wellFormed
      outcome.content.totalUnits).map outcome.destinationOf
    rw [← hperm.nodup_iff, List.map_map]
    refine List.Nodup.map_on (fun exp he exp' he' hdest => ?_)
      ((nodup_allotments outcome _).of_map _)
    exact List.inj_on_of_nodup_map (nodup_payments_of_guardAgrees h) he he'
      (payment_eq_of_destination hpays he he' hdest)

theorem guard_agrees_iff (policy : CostPolicy) (outcome : ArbitrationOutcome) :
    GuardAgrees policy outcome ↔ OneDestinationEach outcome :=
  ⟨oneDestinationEach_of_guardAgrees, guardAgrees_of_oneDestinationEach⟩

end Agree

/-- A split of 20000 between two parties who registered one address. -/
def unevenSplit : ArbitrationOutcome where
  content := ⟨.SPLIT, 20000, "BTC", [⟨"buyer", 7000⟩, ⟨"seller", 3000⟩], "seller"⟩
  destinations := [⟨"buyer", "bc1qshared"⟩, ⟨"seller", "bc1qshared"⟩]
  wellFormed := ⟨by decide, by decide, by decide, by decide, by decide⟩
  bound := by decide

/-- The guard accepts the two shares, and the correspondence takes the first output for
both of them. -/
theorem accepted_split_diverges :
    let psbt : Psbt := ⟨some 20000, [⟨some "bc1qshared", 14000⟩, ⟨some "bc1qshared", 6000⟩]⟩
    Accepts defaultPolicy (.ok psbt) unevenSplit.toOutcome none ∧
      ¬AllMatch defaultPolicy unevenSplit psbt.txOutputs := by
  have hperm : [⟨some "bc1qshared", 14000⟩, ⟨some "bc1qshared", 6000⟩] =
      unevenSplit.payments unevenSplit.content.totalUnits := by decide
  refine ⟨accepts_of_perm_payments (.of_eq hperm), ?_⟩
  rintro ⟨results, heval, hall⟩
  have hresults : evaluateFinalizedTransactionCorrespondence defaultPolicy
      (some [⟨some "bc1qshared", 14000⟩, ⟨some "bc1qshared", 6000⟩]) unevenSplit.toOutcome =
      .ok (.fill unevenSplit.content.allocations AllocationInput.beneficiary
        fun _ => .DIVERGENT) := rfl
  rw [hresults, Except.ok.injEq] at heval
  have := hall "buyer" (by decide)
  rw [← heval] at this
  exact absurd this (by decide)


end Sails.Settlement
