import SailsProtocol.Settlement.Correspondence

/-!
# Skims

`evaluateOutcomeCorrespondenceWithExecutionCost` expects of each beneficiary its share of
what the beneficiaries were observed to get together, so a shortfall is first bounded by
the cost a transaction may have, and then divided like the whole.

`skims_detected` says for every observation map when every beneficiary matches : when each
is observed at its authorised destination, in the authorised asset, with its share of the
observed total, and the total falls short of the authorised one by an execution cost
(`Faithfully`). One leg is `evaluateSettlementCorrespondence_match_iff`. A skim that is
fully observed shows as a divergence, unless a destination or an asset was not reported.
-/

namespace Sails.Settlement

open CorrespondenceResult

variable {policy : CostPolicy} {outcome : ArbitrationOutcome}
variable {observations : ReadonlyMap ExecutionObservation}

/-! ## One leg -/

/-- Only the expected payment itself is a match. -/
theorem evaluateSettlementCorrespondence_match_iff (destination asset : String) (amount : ℤ)
    (observation : ExecutionObservation) :
    evaluateSettlementCorrespondence (some destination) (some amount) (some asset) observation
        = .MATCH ↔
      observation = ⟨.OBSERVED, some destination, some amount, some asset⟩ := by
  obtain ⟨status, seenDestination, seenAmount, seenAsset⟩ := observation
  constructor
  · intro h
    cases status with
    | AWAITED => cases h
    | IRRESOLVABLE => cases h
    | OBSERVED =>
      simp only [evaluateSettlementCorrespondence] at h
      split_ifs at h with hdivergent hunknown
      have hdim : ∀ {α : Type} [DecidableEq α] {a : α} {o : Option α},
          DIVERGENT ∉ checkDimension (some a) o → UNKNOWN ∉ checkDimension (some a) o →
            o = some a := by
        intro α _ a o hd hu
        cases o with
        | none => exact absurd List.mem_cons_self hu
        | some b =>
          by_cases hab : b = a
          · rw [hab]
          · simp [checkDimension, hab] at hd
      simp only [List.mem_append, not_or] at hdivergent hunknown
      rw [hdim hdivergent.1.1 hunknown.1.1, hdim hdivergent.1.2 hunknown.1.2,
        hdim hdivergent.2 hunknown.2]
  · intro h
    cases h
    simp [evaluateSettlementCorrespondence, checkDimension]

/-- An observed leg with all its evidence matches or diverges. -/
theorem evaluateSettlementCorrespondence_decides (destination asset : String) (amount : ℤ)
    (observation : ExecutionObservation) (hstatus : observation.status = .OBSERVED)
    (hdestination : observation.destinationReference ≠ none) (hamount : observation.amount ≠ none)
    (hasset : observation.asset ≠ none) :
    let result := evaluateSettlementCorrespondence (some destination) (some amount) (some asset)
      observation
    result = .MATCH ∨ result = .DIVERGENT := by
  obtain ⟨status, seenDestination, seenAmount, seenAsset⟩ := observation
  obtain rfl : status = .OBSERVED := hstatus
  obtain ⟨d, rfl⟩ := Option.ne_none_iff_exists'.mp hdestination
  obtain ⟨x, rfl⟩ := Option.ne_none_iff_exists'.mp hamount
  obtain ⟨a, rfl⟩ := Option.ne_none_iff_exists'.mp hasset
  have hdim : ∀ {α : Type} [DecidableEq α] (u v : α),
      UNKNOWN ∉ checkDimension (some u) (some v) := by
    intro α _ u v
    by_cases huv : v = u <;> simp [checkDimension, huv]
  dsimp only [evaluateSettlementCorrespondence]
  split
  · exact Or.inr rfl
  · rw [if_neg]
    · exact Or.inl rfl
    · simp only [List.mem_append, not_or]
      exact ⟨⟨hdim _ _, hdim _ _⟩, hdim _ _⟩

/-- What `evaluateLeg` is called with. -/
theorem evaluateLeg_eq {exp : Allotment} (hb : exp.beneficiary ∈ outcome.content.beneficiaries) :
    evaluateLeg outcome.toOutcome observations exp =
      evaluateSettlementCorrespondence (some (outcome.destinationOf exp.beneficiary))
        (some exp.units) (some outcome.content.asset)
        ((observations exp.beneficiary).getD irresolvable) := by
  obtain ⟨d, hfind, hd⟩ := ArbitrationOutcome.find_destination hb
  simp only [evaluateLeg, ArbitrationOutcome.toOutcome_destinations,
    ArbitrationOutcome.toOutcome_content, hfind, Option.map_some, hd]

/-- The observation of a leg that is paid what is expected. -/
def Pays (outcome : ArbitrationOutcome) (observations : ReadonlyMap ExecutionObservation)
    (exp : Allotment) : Prop :=
  observations exp.beneficiary = some ⟨.OBSERVED, some (outcome.destinationOf exp.beneficiary),
    some exp.units, some outcome.content.asset⟩

theorem evaluateLeg_match_iff {exp : Allotment}
    (hb : exp.beneficiary ∈ outcome.content.beneficiaries) :
    evaluateLeg outcome.toOutcome observations exp = .MATCH ↔ Pays outcome observations exp := by
  rw [evaluateLeg_eq hb, evaluateSettlementCorrespondence_match_iff, Pays]
  cases observations exp.beneficiary with
  | none => simp [irresolvable]
  | some obs => simp

/-! ## All legs -/

/-- The sum of the observed amounts. -/
def deliveredTotal (outcome : ArbitrationOutcome)
    (observations : ReadonlyMap ExecutionObservation) : ℤ :=
  (outcome.content.allocations.map fun a =>
    (observedAmount observations a.beneficiary).getD 0).sum

/-- Every beneficiary is observed with an amount. -/
def AllObserved (outcome : ArbitrationOutcome)
    (observations : ReadonlyMap ExecutionObservation) : Prop :=
  ∀ b ∈ outcome.content.beneficiaries, observedAmount observations b ≠ none

/-- Every beneficiary is observed at its destination, in the asset, with its share of the
observed total, which an execution cost separates from the authorised total. -/
def Faithfully (policy : CostPolicy) (outcome : ArbitrationOutcome)
    (observations : ReadonlyMap ExecutionObservation) : Prop :=
  let total := deliveredTotal outcome observations
  total ≤ outcome.content.totalUnits ∧
    outcome.content.totalUnits - total ≤
      maxExecutionCostSats policy outcome.content.allocations.length outcome.content.totalUnits ∧
    ∃ shares, allocateExactUnitsOverTotal outcome.content total = .ok shares ∧
      ∀ b ∈ outcome.content.beneficiaries, ∃ share ∈ shares, share.beneficiary = b ∧
        Pays outcome observations share

/-- Destination or asset were not reported for a beneficiary. -/
def LacksEvidence (observations : ReadonlyMap ExecutionObservation) (b : String) : Prop :=
  ∃ obs, observations b = some obs ∧ (obs.destinationReference = none ∨ obs.asset = none)

/-- A settlement is faithful when its total can be delivered and every part of it is paid. -/
theorem faithfully_iff : Faithfully policy outcome observations ↔
    outcome.content.Deliverable policy (deliveredTotal outcome observations) ∧
      ∀ exp ∈ outcome.content.allotments (deliveredTotal outcome observations),
        Pays outcome observations exp := by
  have halloc := allocateExactUnitsOverTotal_eq outcome.wellFormed
    (deliveredTotal outcome observations)
  constructor
  · rintro ⟨hle, hcost, shares, hshares, hpays⟩
    obtain rfl := Except.ok.inj (halloc.symm.trans hshares)
    refine ⟨⟨hle, hcost⟩, fun exp hexp => ?_⟩
    obtain ⟨share, hshare, heq, hpaid⟩ :=
      hpays _ (ArbitrationOutcome.beneficiary_mem_of_mem_allotments hexp)
    rw [← List.inj_on_of_nodup_map (nodup_allotments outcome _) hshare hexp heq]
    exact hpaid
  · rintro ⟨⟨hle, hcost⟩, hpays⟩
    refine ⟨hle, hcost, _, halloc, fun b hb => ?_⟩
    obtain ⟨exp, hexp, heq⟩ := exists_allotment outcome _ hb
    exact ⟨exp, hexp, heq, hpays exp hexp⟩

theorem all_isSome_iff : (outcome.content.allocations.all fun a =>
    (observedAmount observations a.beneficiary).isSome) = true ↔
      AllObserved outcome observations := by
  simp only [List.all_eq_true, Option.isSome_iff_ne_none, AllObserved,
    ArbitrationOutcomeContent.beneficiaries, List.forall_mem_map]

theorem observedAmount_of_pays {exp : Allotment} (h : Pays outcome observations exp) :
    observedAmount observations exp.beneficiary = some exp.units := by
  rw [observedAmount, h]
  rfl

/-- What is paid as expected is observed with an amount. -/
theorem allObserved_of_pays {total : ℤ}
    (h : ∀ exp ∈ outcome.content.allotments total, Pays outcome observations exp) :
    AllObserved outcome observations := by
  intro b hb
  obtain ⟨exp, hexp, rfl⟩ := exists_allotment outcome total hb
  rw [observedAmount_of_pays (h exp hexp)]
  exact nofun

/-- The result of a beneficiary with a share. -/
theorem fill_leg {total : ℤ} {exp : Allotment} (hexp : exp ∈ outcome.content.allotments total) :
    ReadonlyMap.fill (outcome.content.allotments total) Allotment.beneficiary
      (evaluateLeg outcome.toOutcome observations) exp.beneficiary =
        some (evaluateLeg outcome.toOutcome observations exp) :=
  ReadonlyMap.fill_of_mem _ (nodup_allotments outcome total) hexp

/-- All the legs match when every part is paid. -/
theorem fill_match_iff {total : ℤ} :
    (∀ b ∈ outcome.content.beneficiaries,
      ReadonlyMap.fill (outcome.content.allotments total) Allotment.beneficiary
        (evaluateLeg outcome.toOutcome observations) b = some .MATCH) ↔
      ∀ exp ∈ outcome.content.allotments total, Pays outcome observations exp := by
  constructor
  · intro h exp hexp
    have hb := ArbitrationOutcome.beneficiary_mem_of_mem_allotments hexp
    have hmatch := h _ hb
    rw [fill_leg hexp, Option.some.injEq] at hmatch
    exact (evaluateLeg_match_iff hb).mp hmatch
  · intro h b hb
    obtain ⟨exp, hexp, rfl⟩ := exists_allotment outcome total hb
    rw [fill_leg hexp, Option.some.injEq]
    exact (evaluateLeg_match_iff hb).mpr (h exp hexp)

/-- The results of an evaluation by its case : not all observed, a total that is not
deliverable, or shares of a deliverable total. -/
theorem evaluate_cases (policy : CostPolicy) (outcome : ArbitrationOutcome)
    (observations : ReadonlyMap ExecutionObservation) :
    ∃ results, evaluateOutcomeCorrespondenceWithExecutionCost policy outcome.toOutcome
        observations = .ok results ∧
      (¬ AllObserved outcome observations ∧ results =
          .fill (outcome.content.allotments outcome.content.totalUnits) Allotment.beneficiary
            (evaluateLeg outcome.toOutcome observations) ∨
        (AllObserved outcome observations ∧
          ¬ outcome.content.Deliverable policy (deliveredTotal outcome observations) ∧
          ∀ b ∈ outcome.content.beneficiaries, results b = some .DIVERGENT) ∨
        AllObserved outcome observations ∧
          outcome.content.Deliverable policy (deliveredTotal outcome observations) ∧
          results = .fill (outcome.content.allotments (deliveredTotal outcome observations))
            Allotment.beneficiary (evaluateLeg outcome.toOutcome observations)) := by
  have halloc := allocateExactUnitsOverTotal_eq outcome.wellFormed
  simp only [evaluateOutcomeCorrespondenceWithExecutionCost, ArbitrationOutcome.toOutcome_content]
  rw [← deliveredTotal]
  cases hall : outcome.content.allocations.all fun a =>
      (observedAmount observations a.beneficiary).isSome with
  | false =>
    have hnot : ¬ AllObserved outcome observations := by
      rw [← all_isSome_iff, hall]
      exact fun h => by cases h
    refine ⟨_, ?_, Or.inl ⟨hnot, rfl⟩⟩
    simp only [evaluateOutcomeCorrespondence, ArbitrationOutcome.toOutcome_content, halloc]
  | true =>
    have hobs := all_isSome_iff.mp hall
    cases hderive : deriveDistributableTotal policy outcome.content.totalUnits
        (deliveredTotal outcome observations) outcome.content.allocations.length with
    | error e =>
      refine ⟨_, rfl, Or.inr (Or.inl ⟨hobs, fun hdel => ?_, fun b hb => ?_⟩)⟩
      · rw [deriveDistributableTotal_eq _ _ _ hdel] at hderive
        cases hderive
      · obtain ⟨a, ha, rfl⟩ := List.mem_map.mp hb
        exact ReadonlyMap.fill_of_mem _ outcome.wellFormed.distinct ha
    | ok d =>
      have hdel := deliverable_of_derive hderive
      rw [deriveDistributableTotal_eq _ _ _ hdel] at hderive
      obtain rfl := Except.ok.inj hderive
      refine ⟨_, ?_, Or.inr (Or.inr ⟨hobs, hdel, rfl⟩)⟩
      simp only [halloc]

/-- A leg that is not paid as expected diverges, when it has all its evidence. -/
theorem divergent_of_not_pays {exp : Allotment}
    (hb : exp.beneficiary ∈ outcome.content.beneficiaries)
    (hobs : observedAmount observations exp.beneficiary ≠ none)
    (hpays : ¬ Pays outcome observations exp) :
    evaluateLeg outcome.toOutcome observations exp = .DIVERGENT ∨
      LacksEvidence observations exp.beneficiary := by
  cases hfound : observations exp.beneficiary with
  | none => simp [observedAmount, hfound] at hobs
  | some obs =>
    by_cases hlacks : obs.destinationReference = none ∨ obs.asset = none
    · exact Or.inr ⟨obs, hfound, hlacks⟩
    · rw [not_or] at hlacks
      rw [observedAmount, hfound] at hobs
      dsimp only at hobs
      split_ifs at hobs with hstatus
      · have hdecides := evaluateSettlementCorrespondence_decides
          (outcome.destinationOf exp.beneficiary) outcome.content.asset exp.units obs hstatus
          hlacks.1 hobs hlacks.2
        have hleg := @evaluateLeg_eq _ observations _ hb
        rw [hfound, Option.getD_some] at hleg
        rcases hdecides with hmatch | hdivergent
        · exact absurd ((evaluateLeg_match_iff hb).mp (hleg.trans hmatch)) hpays
        · exact Or.inl (hleg.trans hdivergent)
      · exact absurd rfl hobs

/-- Every beneficiary matches exactly when the outcome was carried out faithfully. Otherwise
one does not, and when all legs are observed one diverges or lacks evidence. -/
theorem skims_detected (policy : CostPolicy) (outcome : ArbitrationOutcome)
    (observations : ReadonlyMap ExecutionObservation) :
    ∃ results, evaluateOutcomeCorrespondenceWithExecutionCost policy outcome.toOutcome
        observations = .ok results ∧
      (∀ b ∈ outcome.content.beneficiaries, results b ≠ none) ∧
      ((∀ b ∈ outcome.content.beneficiaries, results b = some .MATCH) ↔
        Faithfully policy outcome observations) ∧
      (¬ Faithfully policy outcome observations →
        ∃ b ∈ outcome.content.beneficiaries, results b ≠ some .MATCH) ∧
      (AllObserved outcome observations → ¬ Faithfully policy outcome observations →
        ∃ b ∈ outcome.content.beneficiaries,
          results b = some .DIVERGENT ∨ LacksEvidence observations b) := by
  obtain ⟨results, heval, hcases⟩ := evaluate_cases policy outcome observations
  have hsome : ∀ b ∈ outcome.content.beneficiaries, results b ≠ none := by
    intro b hb
    rcases hcases with ⟨-, rfl⟩ | ⟨-, -, hdivergent⟩ | ⟨-, -, rfl⟩
    · obtain ⟨exp, hexp, rfl⟩ := exists_allotment outcome outcome.content.totalUnits hb
      rw [fill_leg hexp]
      exact nofun
    · rw [hdivergent b hb]
      exact nofun
    · obtain ⟨exp, hexp, rfl⟩ :=
        exists_allotment outcome (deliveredTotal outcome observations) hb
      rw [fill_leg hexp]
      exact nofun
  have hiff : (∀ b ∈ outcome.content.beneficiaries, results b = some .MATCH) ↔
      Faithfully policy outcome observations := by
    rw [faithfully_iff]
    rcases hcases with ⟨hnot, rfl⟩ | ⟨-, hdel, hdivergent⟩ | ⟨-, hdel, rfl⟩
    · rw [fill_match_iff]
      exact ⟨fun h => absurd (allObserved_of_pays h) hnot,
        fun h => absurd (allObserved_of_pays h.2) hnot⟩
    · obtain ⟨a, ha⟩ := List.exists_mem_of_ne_nil _ outcome.wellFormed.nonempty
      have hb : a.beneficiary ∈ outcome.content.beneficiaries := List.mem_map_of_mem ha
      refine ⟨fun h => ?_, fun h => absurd h.1 hdel⟩
      cases (hdivergent _ hb).symm.trans (h _ hb)
    · rw [fill_match_iff]
      exact ⟨fun h => ⟨hdel, h⟩, fun h => h.2⟩
  refine ⟨results, heval, hsome, hiff, fun hnot => ?_, fun hobs hnot => ?_⟩
  · by_contra hall
    push Not at hall
    exact hnot (hiff.mp hall)
  · rcases hcases with ⟨hnotobs, -⟩ | ⟨-, -, hdivergent⟩ | ⟨-, hdel, rfl⟩
    · exact absurd hobs hnotobs
    · obtain ⟨a, ha⟩ := List.exists_mem_of_ne_nil _ outcome.wellFormed.nonempty
      have hb : a.beneficiary ∈ outcome.content.beneficiaries := List.mem_map_of_mem ha
      exact ⟨_, hb, Or.inl (hdivergent _ hb)⟩
    · rw [faithfully_iff, not_and] at hnot
      have hunpaid := hnot hdel
      push Not at hunpaid
      obtain ⟨exp, hexp, hpays⟩ := hunpaid
      have hb := ArbitrationOutcome.beneficiary_mem_of_mem_allotments hexp
      refine ⟨_, hb, ?_⟩
      rw [fill_leg hexp, Option.some.injEq]
      exact divergent_of_not_pays hb (hobs _ hb) hpays

end Sails.Settlement
