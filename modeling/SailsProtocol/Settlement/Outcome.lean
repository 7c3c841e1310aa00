import Mathlib.Algebra.BigOperators.Group.List.Basic
import Mathlib.Algebra.Order.BigOperators.Group.List
import Mathlib.Algebra.Order.Floor.Ring
import Mathlib.Data.List.Dedup
import Mathlib.Data.Rat.Floor
import Mathlib.Tactic.Linarith
import SailsProtocol.Numeric.Rounding

/-!
# Authorised outcomes

A ruling on a disputed escrow commits an outcome (`economic-outcome.ts`) : shares of the
locked amount in basis points, one of the beneficiaries to take what the rounding
leaves, and a destination for each of them. `ArbitrationOutcome` is an outcome
`buildArbitrationOutcome` returns (`buildArbitrationOutcome_ok_iff`).

`allocateExactUnitsOverTotal` divides a total by the shares. It gives every beneficiary
one amount (`perm_allotments`), no amount is negative (`units_nonneg`), and the amounts
add up to the total (`sum_units`).

The total is what a transaction delivers. It may fall short of the authorised total by
the cost of the transaction, and `deriveDistributableTotal` bounds how much that may be
(`execution-cost-policy.ts`).
-/

namespace Sails.Settlement

/-- The rulings an arbiter can give. -/
inductive ArbitrationRuling where
  | RELEASE
  | REFUND
  | SPLIT
  deriving DecidableEq, Repr

/-- The share of a beneficiary, in basis points of the total. -/
structure AllocationInput where
  beneficiary : String
  basisPoints : ℤ
  deriving DecidableEq, Repr

/-- What a ruling gives to whom. The total is in the smallest unit of the asset. -/
structure ArbitrationOutcomeContent where
  ruling : ArbitrationRuling
  totalUnits : ℕ
  asset : String
  allocations : List AllocationInput
  remainderBeneficiary : String
  deriving DecidableEq, Repr

/-- Where the part of a beneficiary goes. -/
structure BeneficiaryDestination where
  beneficiary : String
  destination : String
  deriving DecidableEq, Repr

/-- An outcome as it is stored ; its destination binding is optional. -/
structure Outcome where
  content : ArbitrationOutcomeContent
  destinationBinding : Option (List BeneficiaryDestination)
  deriving DecidableEq, Repr

/-- The destinations of an outcome, none when it binds none. -/
def Outcome.destinations (outcome : Outcome) : List BeneficiaryDestination :=
  outcome.destinationBinding.getD []

/-! ## Well-formed contents -/

/-- What `assertWellFormedOutcomeContent` refuses. -/
inductive ContentError where
  /-- `ArbitrationOutcomeContent requires at least one allocation`. -/
  | noAllocation
  /-- `allocations must have distinct beneficiaries`. -/
  | repeatedBeneficiary
  /-- `allocation basisPoints must be an integer in [1, 10000]`. -/
  | basisPoints (got : ℤ)
  /-- `allocations must sum to exactly 10000 basis points`. -/
  | sum (got : ℤ)
  /-- `remainderBeneficiary must be one of the allocation beneficiaries`. -/
  | remainder (beneficiary : String)
  /-- `beneficiary has an allocation but no bound destination`. -/
  | unbound (beneficiary : String)
  /-- `SPLIT requires an integer buyerBps between 1 and 9999`. -/
  | splitBps (got : Option ℤ)
  /-- `No payout address registered for participant`. -/
  | noPayoutAddress (participantId : String)
  deriving DecidableEq, Repr

namespace ArbitrationOutcomeContent

variable (content : ArbitrationOutcomeContent)

/-- The beneficiaries of the content, in order. -/
def beneficiaries : List String :=
  content.allocations.map AllocationInput.beneficiary

/-- The basis points of the content together. -/
def basisPointSum : ℤ :=
  (content.allocations.map AllocationInput.basisPoints).sum

/-- What `assertWellFormedOutcomeContent` lets through. -/
structure WellFormed : Prop where
  nonempty : content.allocations ≠ []
  distinct : content.beneficiaries.Nodup
  range : ∀ a ∈ content.allocations, 1 ≤ a.basisPoints ∧ a.basisPoints ≤ 10000
  sum : content.basisPointSum = 10000
  remainder : content.remainderBeneficiary ∈ content.beneficiaries

end ArbitrationOutcomeContent

/-- The first share out of range stops the loop. -/
def assertBasisPoints : List AllocationInput → Except ContentError Unit
  | [] => .ok ()
  | a :: rest =>
    if a.basisPoints < 1 ∨ a.basisPoints > 10000 then .error (.basisPoints a.basisPoints)
    else assertBasisPoints rest

/-- `assertWellFormedOutcomeContent`, with its checks in their order. -/
def assertWellFormedOutcomeContent (content : ArbitrationOutcomeContent) :
    Except ContentError Unit :=
  if content.allocations.length = 0 then .error .noAllocation
  else if content.beneficiaries.dedup.length ≠ content.allocations.length then
    .error .repeatedBeneficiary
  else
    match assertBasisPoints content.allocations with
    | .error e => .error e
    | .ok () =>
      if content.basisPointSum ≠ 10000 then .error (.sum content.basisPointSum)
      else if content.remainderBeneficiary ∉ content.beneficiaries then
        .error (.remainder content.remainderBeneficiary)
      else .ok ()

/-- Every allocation is of one to 10000 basis points. -/
theorem assertBasisPoints_ok_iff : ∀ allocations : List AllocationInput,
    assertBasisPoints allocations = .ok () ↔
      ∀ a ∈ allocations, 1 ≤ a.basisPoints ∧ a.basisPoints ≤ 10000
  | [] => by simp [assertBasisPoints]
  | a :: rest => by
    rw [assertBasisPoints]
    split
    case isTrue h =>
      simp only [reduceCtorEq, List.mem_cons, forall_eq_or_imp, false_iff, not_and]
      omega
    case isFalse h =>
      rw [assertBasisPoints_ok_iff rest, List.forall_mem_cons]
      have : 1 ≤ a.basisPoints ∧ a.basisPoints ≤ 10000 := by omega
      simp only [this, and_self, true_and]

theorem length_dedup_eq_iff {α : Type*} [DecidableEq α] (l : List α) :
    l.dedup.length = l.length ↔ l.Nodup := by
  rw [← List.dedup_eq_self]
  exact ⟨(List.dedup_sublist l).eq_of_length, fun h => by rw [h]⟩

/-- The content that is accepted is the well-formed one. -/
theorem assertWellFormedOutcomeContent_ok_iff (content : ArbitrationOutcomeContent) :
    assertWellFormedOutcomeContent content = .ok () ↔ content.WellFormed := by
  have hlen : content.allocations.length = content.beneficiaries.length := by
    simp [ArbitrationOutcomeContent.beneficiaries]
  unfold assertWellFormedOutcomeContent
  constructor
  · intro h
    cases hrange : assertBasisPoints content.allocations with
    | error e =>
      simp only [hrange] at h
      split_ifs at h
    | ok =>
      simp only [hrange] at h
      split_ifs at h with hne hset hsum hrem
      rw [not_not, hlen, length_dedup_eq_iff] at hset
      exact ⟨fun h0 => hne (by simp [h0]), hset, (assertBasisPoints_ok_iff _).mp hrange,
        not_not.mp hsum, hrem⟩
  · rintro ⟨hne, hset, hrange, hsum, hrem⟩
    rw [← length_dedup_eq_iff, ← hlen] at hset
    rw [← assertBasisPoints_ok_iff] at hrange
    simp [hne, hset, hrange, hsum, hrem]

/-! ## Outcomes -/

/-- `buildArbitrationOutcome`: content and one destination for each of its beneficiaries. -/
def buildArbitrationOutcome (content : ArbitrationOutcomeContent)
    (destinations : List BeneficiaryDestination) : Except ContentError Outcome := do
  assertWellFormedOutcomeContent content
  match content.allocations.find? fun a =>
      a.beneficiary ∉ destinations.map BeneficiaryDestination.beneficiary with
  | some a => throw (.unbound a.beneficiary)
  | none => pure ⟨content, some destinations⟩

/-- An outcome `buildArbitrationOutcome` returns. -/
structure ArbitrationOutcome where
  content : ArbitrationOutcomeContent
  destinations : List BeneficiaryDestination
  wellFormed : content.WellFormed
  bound : ∀ a ∈ content.allocations,
    a.beneficiary ∈ destinations.map BeneficiaryDestination.beneficiary

namespace ArbitrationOutcome

/-- The outcome with its destinations bound. -/
def toOutcome (outcome : ArbitrationOutcome) : Outcome :=
  ⟨outcome.content, some outcome.destinations⟩

@[simp] theorem toOutcome_content (outcome : ArbitrationOutcome) :
    outcome.toOutcome.content = outcome.content := rfl

@[simp] theorem toOutcome_destinations (outcome : ArbitrationOutcome) :
    outcome.toOutcome.destinations = outcome.destinations := rfl

theorem destinations_ne_nil (outcome : ArbitrationOutcome) : outcome.destinations ≠ [] := by
  intro h
  obtain ⟨a, ha⟩ := List.exists_mem_of_ne_nil _ outcome.wellFormed.nonempty
  simpa [h] using outcome.bound a ha

end ArbitrationOutcome

/-- What is built is a well-formed outcome, and every such outcome is built. -/
theorem buildArbitrationOutcome_ok_iff (content : ArbitrationOutcomeContent)
    (destinations : List BeneficiaryDestination) (built : Outcome) :
    buildArbitrationOutcome content destinations = .ok built ↔
      ∃ outcome : ArbitrationOutcome, outcome.content = content ∧
        outcome.destinations = destinations ∧ outcome.toOutcome = built := by
  unfold buildArbitrationOutcome
  constructor
  · intro h
    cases hwf : assertWellFormedOutcomeContent content with
    | error e => simp [hwf, bind, Except.bind] at h
    | ok =>
      simp only [hwf, bind, Except.bind] at h
      split at h
      · cases h
      case h_2 hnone =>
        refine ⟨⟨content, destinations, (assertWellFormedOutcomeContent_ok_iff _).mp hwf,
          fun a ha => ?_⟩, rfl, rfl, Except.ok.inj h⟩
        simpa using List.find?_eq_none.mp hnone a ha
  · rintro ⟨outcome, rfl, rfl, rfl⟩
    have hwf := (assertWellFormedOutcomeContent_ok_iff _).mpr outcome.wellFormed
    have hnone : (outcome.content.allocations.find? fun a =>
        a.beneficiary ∉ outcome.destinations.map BeneficiaryDestination.beneficiary) = none := by
      refine List.find?_eq_none.mpr fun a ha => ?_
      simpa using outcome.bound a ha
    simp only [hwf, bind, Except.bind, hnone]
    rfl

/-! ## Dividing a total -/

/-- What one beneficiary is owed. -/
structure Allotment where
  beneficiary : String
  units : ℤ
  deriving DecidableEq, Repr

/-- One round of the loop of `allocateExactUnitsOverTotal`. -/
def allocateStep (content : ArbitrationOutcomeContent) (total : ℤ)
    (acc : ℤ × List Allotment) (a : AllocationInput) : ℤ × List Allotment :=
  if a.beneficiary = content.remainderBeneficiary then acc
  else
    let units := (total * a.basisPoints).tdiv 10000
    (acc.1 + units, acc.2 ++ [⟨a.beneficiary, units⟩])

/-- `allocateExactUnitsOverTotal`: the parts rounded down, and the rest for the beneficiary of the
remainder. -/
def allocateExactUnitsOverTotal (content : ArbitrationOutcomeContent) (total : ℤ) :
    Except ContentError (List Allotment) := do
  assertWellFormedOutcomeContent content
  let acc := content.allocations.foldl (allocateStep content total) (0, [])
  pure (acc.2 ++ [⟨content.remainderBeneficiary, total - acc.1⟩])

namespace ArbitrationOutcomeContent

variable (content : ArbitrationOutcomeContent)

/-- The shares other than the remainder beneficiary's. -/
def others : List AllocationInput :=
  content.allocations.filter fun a => a.beneficiary ≠ content.remainderBeneficiary

/-- The amounts of the other shares. -/
def floors (total : ℤ) : List ℤ :=
  content.others.map fun a => (total * a.basisPoints).tdiv 10000

/-- The parts of a total, as an expression. -/
def allotments (total : ℤ) : List Allotment :=
  (content.others.map fun a => ⟨a.beneficiary, (total * a.basisPoints).tdiv 10000⟩) ++
    [⟨content.remainderBeneficiary, total - (content.floors total).sum⟩]

end ArbitrationOutcomeContent

/-- The loop adds up the parts that are rounded down. -/
theorem foldl_allocateStep (content : ArbitrationOutcomeContent) (total : ℤ) :
    ∀ (allocations : List AllocationInput) (acc : ℤ × List Allotment),
      let others := allocations.filter fun a => a.beneficiary ≠ content.remainderBeneficiary
      allocations.foldl (allocateStep content total) acc =
        (acc.1 + (others.map fun a => (total * a.basisPoints).tdiv 10000).sum,
          acc.2 ++ others.map fun a => ⟨a.beneficiary, (total * a.basisPoints).tdiv 10000⟩)
  | [], acc => by simp
  | a :: rest, acc => by
    have ih := foldl_allocateStep content total rest
    by_cases h : a.beneficiary = content.remainderBeneficiary
    · simpa [allocateStep, h] using ih acc
    · simp only [List.foldl_cons, ih, allocateStep, h, if_false, decide_not, Bool.not_false,
        decide_false, List.filter_cons_of_pos, List.map_cons, List.sum_cons]
      simp [add_assoc]

theorem allocateExactUnitsOverTotal_eq {content : ArbitrationOutcomeContent}
    (h : content.WellFormed) (total : ℤ) :
    allocateExactUnitsOverTotal content total = .ok (content.allotments total) := by
  have hwf := (assertWellFormedOutcomeContent_ok_iff _).mpr h
  simp only [allocateExactUnitsOverTotal, hwf, bind, Except.bind, pure, Except.pure,
    foldl_allocateStep, zero_add, List.nil_append]
  rfl

namespace ArbitrationOutcomeContent

variable {content : ArbitrationOutcomeContent}

/-- The shares are the remainder beneficiary's and the others. -/
theorem perm_others (h : content.WellFormed) : ∃ a,
    a.beneficiary = content.remainderBeneficiary ∧ content.allocations.Perm (a :: content.others) := by
  obtain ⟨a, ha, hrem⟩ := List.mem_map.mp h.remainder
  refine ⟨a, hrem, ?_⟩
  have hsplit := (List.filter_append_perm
    (fun b : AllocationInput => b.beneficiary = content.remainderBeneficiary)
    content.allocations).symm
  have hone : (content.allocations.filter
      fun b => b.beneficiary = content.remainderBeneficiary) = [a] := by
    have hnodup : content.allocations.Nodup := h.distinct.of_map _
    refine List.perm_singleton.mp ((List.perm_ext_iff_of_nodup (hnodup.filter _) (by simp)).mpr
      fun b => ?_)
    simp only [List.mem_filter, decide_eq_true_eq, List.mem_singleton]
    constructor
    · rintro ⟨hb, hbrem⟩
      exact List.inj_on_of_nodup_map h.distinct hb ha (hbrem.trans hrem.symm)
    · rintro rfl
      exact ⟨ha, hrem⟩
  rw [hone] at hsplit
  simpa [others] using hsplit

theorem perm_allotments (h : content.WellFormed) (total : ℤ) :
    ((content.allotments total).map Allotment.beneficiary).Perm content.beneficiaries := by
  obtain ⟨a, hrem, hperm⟩ := perm_others h
  have : content.beneficiaries.Perm ((a :: content.others).map AllocationInput.beneficiary) :=
    hperm.map _
  refine List.Perm.trans ?_ this.symm
  simp [allotments, hrem, Function.comp_def, List.perm_append_singleton]

theorem length_allotments (h : content.WellFormed) (total : ℤ) :
    (content.allotments total).length = content.allocations.length := by
  simpa [beneficiaries] using (perm_allotments h total).length_eq

theorem sum_units (content : ArbitrationOutcomeContent) (total : ℤ) :
    ((content.allotments total).map Allotment.units).sum = total := by
  simp [allotments, floors, Function.comp_def]

/-- The rounded parts are not more than the exact ones. -/
theorem floors_mul_le {total : ℤ} (ht : 0 ≤ total) : ∀ l : List AllocationInput,
    (∀ a ∈ l, 0 ≤ a.basisPoints) →
      10000 * (l.map fun a => (total * a.basisPoints).tdiv 10000).sum ≤
        total * (l.map AllocationInput.basisPoints).sum
  | [], _ => by simp
  | a :: l, h => by
    have hhead := Int.mul_tdiv_self_le (k := 10000) (mul_nonneg ht (h a (by simp)))
    have htail := floors_mul_le ht l fun b hb => h b (by simp [hb])
    simp only [List.map_cons, List.sum_cons, mul_add]
    exact add_le_add hhead htail

/-- The rounded parts are not more than the total. -/
theorem floors_sum_le (h : content.WellFormed) {total : ℤ} (ht : 0 ≤ total) :
    (content.floors total).sum ≤ total := by
  obtain ⟨a, -, hperm⟩ := perm_others h
  have hsum : a.basisPoints + (content.others.map AllocationInput.basisPoints).sum = 10000 := by
    rw [← h.sum, basisPointSum, (hperm.map _).sum_eq, List.map_cons, List.sum_cons]
  have ha := (h.range a (hperm.mem_iff.mpr (by simp))).1
  have hfloor : 10000 * (content.floors total).sum ≤
      total * (content.others.map AllocationInput.basisPoints).sum :=
    floors_mul_le ht content.others fun b hb => by
      have := (h.range b (List.mem_of_mem_filter hb)).1
      omega
  nlinarith

/-- No part is negative. -/
theorem units_nonneg (h : content.WellFormed) {total : ℤ} (ht : 0 ≤ total) :
    ∀ e ∈ content.allotments total, 0 ≤ e.units := by
  intro e he
  rcases List.mem_append.mp he with he | he
  · obtain ⟨a, ha, rfl⟩ := List.mem_map.mp he
    have hbp := (h.range a (List.mem_of_mem_filter ha)).1
    exact Int.tdiv_nonneg (mul_nonneg ht (by omega)) (by decide)
  · rw [List.mem_singleton.mp he]
    have := floors_sum_le h ht
    simp only
    omega

end ArbitrationOutcomeContent

/-! ## The cost of a transaction -/

/-- The three settings of the execution-cost policy (`config.multisig`). -/
structure CostPolicy where
  maxFeeRateSatsPerVByte : ℚ
  maxFeeProportionOfGrossBasisPoints : ℕ
  minFeeFloorSats : ℕ

/-- The settings of a deployment that sets none of the three variables. -/
def defaultPolicy : CostPolicy :=
  ⟨200, 2000, 10000⟩

/-- `estimatedVBytesForOutputCount`. -/
def estimatedVBytesForOutputCount (outputCount : ℕ) : ℕ :=
  11 + 110 + 43 * outputCount

/-- `maxExecutionCostSats`: the tightest of the ceilings on a miner fee. -/
def maxExecutionCostSats (policy : CostPolicy) (outputCount : ℕ) (grossSats : ℤ) : ℤ :=
  let rateBound : ℤ := ⌈Numeric.toDouble
    (policy.maxFeeRateSatsPerVByte * estimatedVBytesForOutputCount outputCount)⌉
  let proportionalBound : ℤ :=
    (grossSats * policy.maxFeeProportionOfGrossBasisPoints).tdiv 10000
  let tightest := if rateBound < proportionalBound then rateBound else proportionalBound
  if tightest > policy.minFeeFloorSats then tightest else policy.minFeeFloorSats

theorem maxExecutionCostSats_nonneg (policy : CostPolicy) (outputCount : ℕ) (grossSats : ℤ) :
    0 ≤ maxExecutionCostSats policy outputCount grossSats := by
  simp only [maxExecutionCostSats]
  split <;> omega

/-- What `deriveDistributableTotal` refuses. -/
inductive DerivationError where
  /-- `delivered total exceeds the authorized gross entitlement`. -/
  | exceedsGross (deliveredTotalSats grossSats : ℤ)
  /-- `implied execution cost exceeds the deterministic ceiling`. -/
  | exceedsCeiling (impliedFeeSats grossSats deliveredTotalSats : ℤ) (outputCount : ℕ)
      (ceiling : ℤ)
  deriving DecidableEq, Repr

/-- The total to distribute and the fee it implies. -/
def deriveDistributableTotal (policy : CostPolicy) (grossSats deliveredTotalSats : ℤ)
    (outputCount : ℕ) : Except DerivationError (ℤ × ℤ) :=
  let impliedFeeSats := grossSats - deliveredTotalSats
  if impliedFeeSats < 0 then .error (.exceedsGross deliveredTotalSats grossSats)
  else
    let ceiling := maxExecutionCostSats policy outputCount grossSats
    if impliedFeeSats > ceiling then
      .error (.exceedsCeiling impliedFeeSats grossSats deliveredTotalSats outputCount ceiling)
    else .ok (deliveredTotalSats, impliedFeeSats)

/-- The totals a transaction may deliver under an outcome. -/
def ArbitrationOutcomeContent.Deliverable (policy : CostPolicy)
    (content : ArbitrationOutcomeContent) (total : ℤ) : Prop :=
  total ≤ content.totalUnits ∧ content.totalUnits - total ≤
    maxExecutionCostSats policy content.allocations.length content.totalUnits

theorem ArbitrationOutcomeContent.deliverable_totalUnits (policy : CostPolicy)
    (content : ArbitrationOutcomeContent) :
    content.Deliverable policy content.totalUnits := by
  have := maxExecutionCostSats_nonneg policy content.allocations.length content.totalUnits
  exact ⟨le_rfl, by omega⟩

/-- The derivation succeeds exactly on deliverable totals, and passes the total on. -/
theorem deriveDistributableTotal_eq (policy : CostPolicy) (content : ArbitrationOutcomeContent)
    (total : ℤ) (h : content.Deliverable policy total) :
    deriveDistributableTotal policy content.totalUnits total content.allocations.length =
      .ok (total, content.totalUnits - total) := by
  obtain ⟨hle, hcost⟩ := h
  simp only [deriveDistributableTotal]
  rw [if_neg (by omega), if_neg (by omega)]

theorem deliverable_of_derive {policy : CostPolicy} {content : ArbitrationOutcomeContent}
    {total : ℤ} {r : ℤ × ℤ} (h : deriveDistributableTotal policy content.totalUnits total
      content.allocations.length = .ok r) : content.Deliverable policy total := by
  simp only [deriveDistributableTotal] at h
  split_ifs at h with hneg hcost
  exact ⟨by omega, by omega⟩

end Sails.Settlement
