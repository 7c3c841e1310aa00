import Mathlib.Data.List.Duplicate
import SailsProtocol.Settlement.Outcome

/-!
# The dispatch guard

Before a settlement transaction is offered for signature, its outputs are compared with
the outcome (`dispatch-translation-guard.ts`). The guard looks for one output for each
beneficiary, by address and amount, and counts the outputs.

`accepts_iff` says what the guard accepts : every payment of the outcome is among the
outputs (`ArbitrationOutcome.payments`), there are as many outputs as beneficiaries, and
the total is one the outcome may deliver. Two beneficiaries with the same payment are
matched to the same output, and the other output is then free. `guard_sound_iff` : the
guard is sound for an outcome exactly when no total it may deliver gives two
beneficiaries the same payment.
-/

namespace Sails.Settlement

/-- An output, with the address of its script ; a non-standard script has none. -/
structure TxOutput where
  address : Option String
  value : ℕ
  deriving DecidableEq, Repr

/-- What the guard reads of a PSBT : the value its first input spends, and the outputs. -/
structure Psbt where
  witnessUtxo : Option ℕ
  txOutputs : List TxOutput
  deriving DecidableEq, Repr

/-- The sum of the outputs. -/
def outputTotal (outputs : List TxOutput) : ℕ :=
  (outputs.map TxOutput.value).sum

/-- What the guard finds fault with. -/
inductive Mismatch where
  /-- `failed to decode translated PSBT`. -/
  | undecodable (reason : String)
  /-- `translated PSBT input has no witnessUtxo`. -/
  | noWitnessUtxo
  /-- `translated PSBT outputs exceed its own declared input`. -/
  | outputsExceedInput (outputTotal inputValue : ℕ)
  /-- `translator declared a miner fee of …, but the translated PSBT actually implies …`. -/
  | declaredFee (declared actual : ℤ) (inputValue outputTotal : ℕ)
  /-- `authoritative Outcome has no destination binding`. -/
  | noDestinationBinding
  | derivation (reason : DerivationError)
  /-- `no destination binding exists for allocated beneficiary`. -/
  | noDestination (beneficiary : String)
  /-- `beneficiary expected … sats at …, translated PSBT pays … sats there instead`. -/
  | wrongAmount (beneficiary : String) (units : ℤ) (destination : String) (paid : ℕ)
  /-- `beneficiary expected an output of … sats at … — no such output exists`. -/
  | noOutput (beneficiary : String) (units : ℤ) (destination : String)
  /-- `translated PSBT has … output(s), expected exactly …`. -/
  | outputCount (actual expected : ℕ)
  deriving DecidableEq, Repr

/-- `TranslationGuardResult`. -/
structure TranslationGuardResult where
  ok : Bool
  mismatches : List Mismatch
  deriving DecidableEq, Repr

/-- The declared fee, when there is one, is what input and outputs leave. -/
def declaredFeeMismatch (declaredMinerFeeSats : Option ℤ) (inputValue total : ℕ) :
    List Mismatch :=
  match declaredMinerFeeSats with
  | some fee =>
    if (inputValue : ℤ) - total ≠ fee then
      [.declaredFee fee (inputValue - total) inputValue total]
    else []
  | none => []

/-- The check of one beneficiary. -/
def checkLeg (destinations : List BeneficiaryDestination) (outputs : List TxOutput)
    (exp : Allotment) : List Mismatch :=
  match destinations.find? fun d => d.beneficiary = exp.beneficiary with
  | none => [.noDestination exp.beneficiary]
  | some d =>
    match outputs.find? fun o => o.address = some d.destination ∧ (o.value : ℤ) = exp.units with
    | some _ => []
    | none =>
      match outputs.find? fun o => o.address = some d.destination with
      | some o => [.wrongAmount exp.beneficiary exp.units d.destination o.value]
      | none => [.noOutput exp.beneficiary exp.units d.destination]

/-- The checks of all beneficiaries, and the count of the outputs, after `mismatches`. -/
def compareOutputs (mismatches : List Mismatch) (destinations : List BeneficiaryDestination)
    (outputs : List TxOutput) (expected : List Allotment) : TranslationGuardResult :=
  let legs := expected.flatMap (checkLeg destinations outputs)
  let count : List Mismatch :=
    if outputs.length ≠ expected.length then [.outputCount outputs.length expected.length]
    else []
  let all := mismatches ++ legs ++ count
  ⟨all.length = 0, all⟩

/-- The guard on the decoded PSBT, or on the reason why it does not decode. It throws
when the content of the outcome is not well formed. -/
def validateTranslatedOutputsAgainstOutcome (policy : CostPolicy)
    (decoded : Except String Psbt) (outcome : Outcome) (declaredMinerFeeSats : Option ℤ) :
    Except ContentError TranslationGuardResult :=
  match decoded with
  | .error reason => .ok ⟨false, [.undecodable reason]⟩
  | .ok psbt =>
    match psbt.witnessUtxo with
    | none => .ok ⟨false, [.noWitnessUtxo]⟩
    | some inputValue =>
      let total := outputTotal psbt.txOutputs
      if total > inputValue then .ok ⟨false, [.outputsExceedInput total inputValue]⟩
      else
        let mismatches := declaredFeeMismatch declaredMinerFeeSats inputValue total
        if outcome.destinations.length = 0 then .ok ⟨false, [.noDestinationBinding]⟩
        else
          match deriveDistributableTotal policy outcome.content.totalUnits total
              outcome.content.allocations.length with
          | .error reason => .ok ⟨false, mismatches ++ [.derivation reason]⟩
          | .ok (distributable, _) =>
            match allocateExactUnitsOverTotal outcome.content distributable with
            | .error e => .error e
            | .ok expected =>
              .ok (compareOutputs mismatches outcome.destinations psbt.txOutputs expected)

/-- The guard lets the PSBT through. -/
def Accepts (policy : CostPolicy) (decoded : Except String Psbt) (outcome : Outcome)
    (declaredMinerFeeSats : Option ℤ) : Prop :=
  ∃ r, validateTranslatedOutputsAgainstOutcome policy decoded outcome declaredMinerFeeSats =
    .ok r ∧ r.ok = true

/-! ## What the outcome pays -/

namespace ArbitrationOutcome

variable (outcome : ArbitrationOutcome)

/-- The destination the guard looks up. -/
def destinationOf (beneficiary : String) : String :=
  ((outcome.destinations.find? fun d => d.beneficiary = beneficiary).map
    BeneficiaryDestination.destination).getD ""

/-- The output that pays an allotment. -/
def payment (exp : Allotment) : TxOutput :=
  ⟨some (outcome.destinationOf exp.beneficiary), exp.units.toNat⟩

/-- One output for each beneficiary. -/
def payments (total : ℤ) : List TxOutput :=
  (outcome.content.allotments total).map outcome.payment

variable {outcome}

theorem beneficiary_mem_of_mem_allotments {total : ℤ} {exp : Allotment}
    (h : exp ∈ outcome.content.allotments total) :
    exp.beneficiary ∈ outcome.content.beneficiaries :=
  (ArbitrationOutcomeContent.perm_allotments outcome.wellFormed total).mem_iff.mp
    (List.mem_map_of_mem h)

/-- Every beneficiary has a destination. -/
theorem find_destination {beneficiary : String}
    (h : beneficiary ∈ outcome.content.beneficiaries) :
    ∃ d, (outcome.destinations.find? fun d => d.beneficiary = beneficiary) = some d ∧
      d.destination = outcome.destinationOf beneficiary := by
  obtain ⟨a, ha, rfl⟩ := List.mem_map.mp h
  obtain ⟨d, hd, heq⟩ := List.mem_map.mp (outcome.bound a ha)
  cases hfind : outcome.destinations.find? fun d => d.beneficiary = a.beneficiary with
  | none => simpa [heq] using List.find?_eq_none.mp hfind d hd
  | some d' => exact ⟨d', rfl, by simp [destinationOf, hfind]⟩

theorem length_payments (total : ℤ) :
    (outcome.payments total).length = outcome.content.allocations.length := by
  rw [payments, List.length_map]
  exact ArbitrationOutcomeContent.length_allotments outcome.wellFormed total

/-- The payments add up to the total. -/
theorem outputTotal_payments {total : ℕ} : outputTotal (outcome.payments total) = total := by
  have hcast : ∀ l : List Allotment, (∀ exp ∈ l, 0 ≤ exp.units) →
      ((outputTotal (l.map outcome.payment) : ℕ) : ℤ) = (l.map Allotment.units).sum := by
    intro l hl
    induction l with
    | nil => rfl
    | cons exp l ih =>
      have hhead := hl exp (by simp)
      have htail := ih fun e he => hl e (by simp [he])
      simp only [outputTotal, List.map_cons, List.sum_cons, payment, Nat.cast_add] at htail ⊢
      omega
  have := hcast _ (ArbitrationOutcomeContent.units_nonneg outcome.wellFormed
    (Int.natCast_nonneg total))
  rw [ArbitrationOutcomeContent.sum_units] at this
  exact_mod_cast this

end ArbitrationOutcome

theorem outputTotal_perm {l l' : List TxOutput} (h : l.Perm l') :
    outputTotal l = outputTotal l' :=
  (h.map _).sum_eq

/-! ## What the guard accepts -/

/-- What the guard has checked of the PSBT it lets through. -/
structure Translates (policy : CostPolicy) (outcome : ArbitrationOutcome) (psbt : Psbt)
    (declaredMinerFeeSats : Option ℤ) : Prop where
  input : ∃ v, psbt.witnessUtxo = some v ∧ outputTotal psbt.txOutputs ≤ v ∧
    ∀ fee, declaredMinerFeeSats = some fee → fee = v - outputTotal psbt.txOutputs
  deliverable : outcome.content.Deliverable policy (outputTotal psbt.txOutputs)
  paid : outcome.payments (outputTotal psbt.txOutputs) ⊆ psbt.txOutputs
  count : psbt.txOutputs.length = outcome.content.allocations.length

/-- When a leg has no fault. -/
theorem checkLeg_eq_nil_iff {outcome : ArbitrationOutcome} {total : ℤ} (ht : 0 ≤ total)
    {exp : Allotment} (h : exp ∈ outcome.content.allotments total) (outputs : List TxOutput) :
    checkLeg outcome.destinations outputs exp = [] ↔ outcome.payment exp ∈ outputs := by
  obtain ⟨d, hfind, hd⟩ := ArbitrationOutcome.find_destination
    (ArbitrationOutcome.beneficiary_mem_of_mem_allotments h)
  have hunits := ArbitrationOutcomeContent.units_nonneg outcome.wellFormed ht exp h
  have hpay : ∀ o : TxOutput, (o.address = some d.destination ∧ (o.value : ℤ) = exp.units) ↔
      o = outcome.payment exp := by
    rintro ⟨address, value⟩
    simp only [ArbitrationOutcome.payment, TxOutput.mk.injEq, hd]
    refine and_congr_right fun _ => ?_
    omega
  simp only [checkLeg, hfind]
  cases hmatch : outputs.find? fun o =>
      o.address = some d.destination ∧ (o.value : ℤ) = exp.units with
  | some o =>
    have ho := (hpay o).mp (by simpa using List.find?_some hmatch)
    simpa [← ho] using List.mem_of_find?_eq_some hmatch
  | none =>
    have hnot : outcome.payment exp ∉ outputs := fun hmem => by
      have := List.find?_eq_none.mp hmatch _ hmem
      simp only [decide_eq_true_eq] at this
      exact this ((hpay _).mpr rfl)
    simp only [hnot, iff_false]
    split <;> simp

/-- When the declared fee has no fault. -/
theorem declaredFeeMismatch_eq_nil_iff (declaredMinerFeeSats : Option ℤ)
    (inputValue total : ℕ) : declaredFeeMismatch declaredMinerFeeSats inputValue total = [] ↔
      ∀ fee, declaredMinerFeeSats = some fee → fee = inputValue - total := by
  cases declaredMinerFeeSats with
  | none => simp [declaredFeeMismatch]
  | some fee =>
    simp only [declaredFeeMismatch, Option.some.injEq, forall_eq']
    split_ifs with h
    · simp [Ne.symm h]
    · simpa using (not_not.mp h).symm

/-- When the outputs have no fault. -/
theorem compareOutputs_ok_iff (mismatches : List Mismatch)
    (destinations : List BeneficiaryDestination) (outputs : List TxOutput)
    (expected : List Allotment) :
    (compareOutputs mismatches destinations outputs expected).ok = true ↔
      mismatches = [] ∧ (∀ exp ∈ expected, checkLeg destinations outputs exp = []) ∧
        outputs.length = expected.length := by
  simp only [compareOutputs, decide_eq_true_eq, List.length_eq_zero_iff, List.append_eq_nil_iff,
    List.flatMap_eq_nil_iff, and_assoc]
  refine and_congr_right fun _ => and_congr_right fun _ => ?_
  split_ifs with h
  · simpa using h
  · simpa using h

/-- The comparison at the end of the guard, on a PSBT that reaches it. -/
theorem compare_payments_iff {outcome : ArbitrationOutcome} {psbt : Psbt} {v : ℕ}
    {declaredMinerFeeSats : Option ℤ} {total : ℕ} :
    (compareOutputs (declaredFeeMismatch declaredMinerFeeSats v total) outcome.destinations
      psbt.txOutputs (outcome.content.allotments total)).ok = true ↔
      (∀ fee, declaredMinerFeeSats = some fee → fee = v - total) ∧
        outcome.payments total ⊆ psbt.txOutputs ∧
        psbt.txOutputs.length = outcome.content.allocations.length := by
  rw [compareOutputs_ok_iff, declaredFeeMismatch_eq_nil_iff,
    ArbitrationOutcomeContent.length_allotments outcome.wellFormed]
  refine and_congr_right fun _ => and_congr_left fun _ => ?_
  rw [ArbitrationOutcome.payments, List.subset_def, List.forall_mem_map]
  exact forall₂_congr fun exp h => checkLeg_eq_nil_iff (Int.natCast_nonneg total) h _

/-- What the guard accepts. -/
theorem accepts_iff (policy : CostPolicy) (decoded : Except String Psbt)
    (outcome : ArbitrationOutcome) (declaredMinerFeeSats : Option ℤ) :
    Accepts policy decoded outcome.toOutcome declaredMinerFeeSats ↔
      ∃ psbt, decoded = .ok psbt ∧ Translates policy outcome psbt declaredMinerFeeSats := by
  have hdest : ¬outcome.destinations.length = 0 := by
    simpa using outcome.destinations_ne_nil
  have halloc := allocateExactUnitsOverTotal_eq outcome.wellFormed
  constructor
  · rintro ⟨r, hr, hok⟩
    unfold validateTranslatedOutputsAgainstOutcome at hr
    cases decoded with
    | error reason =>
      cases hr
      cases hok
    | ok psbt =>
    refine ⟨psbt, rfl, ?_⟩
    cases hv : psbt.witnessUtxo with
    | none =>
      simp only [hv] at hr
      cases hr
      cases hok
    | some v =>
    simp only [hv, ArbitrationOutcome.toOutcome_destinations, hdest, if_false] at hr
    split_ifs at hr with hle
    · cases hr
      cases hok
    cases hderive : deriveDistributableTotal policy outcome.content.totalUnits
        (outputTotal psbt.txOutputs) outcome.content.allocations.length with
    | error e =>
      simp only [ArbitrationOutcome.toOutcome_content, hderive] at hr
      cases hr
      cases hok
    | ok d =>
    have hdel := deliverable_of_derive hderive
    simp only [ArbitrationOutcome.toOutcome_content, deriveDistributableTotal_eq _ _ _ hdel,
      halloc] at hr
    cases hr
    obtain ⟨hfee, hpaid, hcount⟩ := compare_payments_iff.mp hok
    exact ⟨⟨v, hv, not_lt.mp hle, hfee⟩, hdel, hpaid, hcount⟩
  · rintro ⟨psbt, rfl, ⟨v, hv, hle, hfee⟩, hdel, hpaid, hcount⟩
    refine ⟨_, ?_, compare_payments_iff.mpr ⟨hfee, hpaid, hcount⟩⟩
    simp only [validateTranslatedOutputsAgainstOutcome, hv, gt_iff_lt, not_lt.mpr hle, if_false,
      ArbitrationOutcome.toOutcome_destinations, hdest, ArbitrationOutcome.toOutcome_content,
      deriveDistributableTotal_eq _ _ _ hdel, halloc]

/-! ## Soundness -/

/-- The outputs are the payments of the outcome over what they add up to, and that is a
total the outcome may deliver. -/
def Faithful (policy : CostPolicy) (outcome : ArbitrationOutcome) (psbt : Psbt) : Prop :=
  psbt.txOutputs.Perm (outcome.payments (outputTotal psbt.txOutputs)) ∧
    outcome.content.Deliverable policy (outputTotal psbt.txOutputs)

theorem perm_payments_of_nodup {policy : CostPolicy} {outcome : ArbitrationOutcome} {psbt : Psbt}
    {declaredMinerFeeSats : Option ℤ} (h : Translates policy outcome psbt declaredMinerFeeSats)
    (hnodup : (outcome.payments (outputTotal psbt.txOutputs)).Nodup) :
    psbt.txOutputs.Perm (outcome.payments (outputTotal psbt.txOutputs)) := by
  have hsub := List.subperm_of_subset hnodup h.paid
  refine (hsub.perm_of_length_le ?_).symm
  rw [h.count, ArbitrationOutcome.length_payments]

/-- Taking one of two equal items out leaves every item in. -/
theorem mem_erase_of_duplicate {α : Type*} [DecidableEq α] {l : List α} {a b : α}
    (hdup : l.Duplicate a) (hb : b ∈ l) : b ∈ l.erase a := by
  by_cases h : b = a
  · have := List.duplicate_iff_two_le_count.mp hdup
    refine List.count_pos_iff.mp ?_
    rw [h, List.count_erase_self]
    omega
  · exact (List.mem_erase_of_ne h).mpr hb

/-- One of two equal payments replaced by an output to nobody in particular. -/
def diverted (outcome : ArbitrationOutcome) (total : ℤ) (o : TxOutput) : List TxOutput :=
  ⟨none, o.value⟩ :: (outcome.payments total).erase o

/-- With two equal payments one of them can be diverted. -/
theorem translates_diverted {policy : CostPolicy} {outcome : ArbitrationOutcome} {total : ℕ}
    (hdel : outcome.content.Deliverable policy total) {o : TxOutput}
    (hdup : (outcome.payments total).Duplicate o) :
    Translates policy outcome ⟨some total, diverted outcome total o⟩ none := by
  have hperm := List.perm_cons_erase hdup.mem
  have htotal : outputTotal (diverted outcome total o) = total := by
    have := outputTotal_perm hperm
    rw [ArbitrationOutcome.outputTotal_payments] at this
    simp only [outputTotal, diverted, List.map_cons, List.sum_cons] at this ⊢
    exact this.symm
  refine ⟨⟨total, rfl, htotal.le, by simp⟩, by rwa [htotal], ?_, ?_⟩
  · rw [htotal]
    exact fun o' ho' => List.mem_cons_of_mem _ (mem_erase_of_duplicate hdup ho')
  · have := hperm.length_eq
    rw [ArbitrationOutcome.length_payments] at this
    rw [this]
    rfl

/-- The guard is sound when no two payments are equal. -/
theorem guard_sound_iff (policy : CostPolicy) (outcome : ArbitrationOutcome) :
    (∀ decoded declaredMinerFeeSats,
      Accepts policy decoded outcome.toOutcome declaredMinerFeeSats →
        ∃ psbt, decoded = .ok psbt ∧ Faithful policy outcome psbt) ↔
      ∀ total : ℕ, outcome.content.Deliverable policy total →
        (outcome.payments total).Nodup := by
  constructor
  · intro hsound total hdel
    by_contra hnodup
    obtain ⟨o, hdup⟩ := List.exists_duplicate_iff_not_nodup.mpr hnodup
    have htrans := translates_diverted hdel hdup
    obtain ⟨psbt, hpsbt, hperm, -⟩ := hsound _ none
      ((accepts_iff policy _ outcome none).mpr ⟨_, rfl, htrans⟩)
    cases hpsbt
    have hnone : (⟨none, o.value⟩ : TxOutput) ∈ outcome.payments _ :=
      hperm.mem_iff.mp List.mem_cons_self
    obtain ⟨exp, -, hexp⟩ := List.mem_map.mp hnone
    simp [ArbitrationOutcome.payment] at hexp
  · intro hnodup decoded declared haccepts
    obtain ⟨psbt, rfl, htrans⟩ := (accepts_iff policy _ outcome declared).mp haccepts
    exact ⟨psbt, rfl, perm_payments_of_nodup htrans (hnodup _ htrans.deliverable),
      htrans.deliverable⟩

/-- An even split of 20000 between two parties who registered one address. -/
def evenSplit : ArbitrationOutcome where
  content := ⟨.SPLIT, 20000, "BTC", [⟨"buyer", 5000⟩, ⟨"seller", 5000⟩], "seller"⟩
  destinations := [⟨"buyer", "bc1qshared"⟩, ⟨"seller", "bc1qshared"⟩]
  wellFormed := ⟨by decide, by decide, by decide, by decide, by decide⟩
  bound := by decide

/-- Half of the amount goes to a script of nobody's, and the guard lets it through. -/
theorem guard_accepts_diverted_half :
    let psbt : Psbt := ⟨some 20000, [⟨some "bc1qshared", 10000⟩, ⟨none, 10000⟩]⟩
    Accepts defaultPolicy (.ok psbt) evenSplit.toOutcome none ∧
      ¬Faithful defaultPolicy evenSplit psbt := by
  refine ⟨(accepts_iff _ _ _ _).mpr ⟨_, rfl, ⟨20000, rfl, by decide, by decide⟩, ?_, ?_, rfl⟩, ?_⟩
  · exact evenSplit.content.deliverable_totalUnits defaultPolicy
  · decide
  · exact fun h => absurd h.1 (by decide)

end Sails.Settlement
