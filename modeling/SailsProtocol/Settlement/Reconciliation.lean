import SailsProtocol.Settlement.Funding

/-!
# Reconciling funded amounts

`EscrowService.lockFunds` records what the provider saw as the funded amount of an escrow with
a fee policy, and `findFundedAmountMismatches` compares it with the amount it recomputes from
the locked amount and the frozen rate. The provider counts satoshi and the reconciler
bitcoin, and the reconciler does not know of a fee that was waived before funding.

`reconciles_iff` : the two agree exactly when nothing is locked, or when the fee was waived
and the rate makes up for the units. A funded escrow is reported otherwise
(`funded_escrow_reported`).
-/

namespace Sails.Settlement

open Numeric

/-- The columns of an escrow that the reconciler reads. -/
structure FundedEscrow extends MultisigEscrow where
  id : String
  fundedAmount : Option ℚ

/-- The write of `EscrowService.lockFunds`, as far as the reconciler reads it. -/
def FundedEscrow.updateLockResult (row : FundedEscrow) (result : FundingLock) : FundedEscrow :=
  match result.fundedAmount with
  | none => row
  | some value => { row with fundedAmount := some (toColumn value) }

/-- A row of the report on funded amounts. -/
structure FundedAmountMismatchRow where
  escrowId : String
  fundedAmount : ℚ
  requiredFundingAmount : ℚ

/-- The turn of the loop for one row that the query answers. -/
def fundedAmountMismatch (row : FundedEscrow) : Option FundedAmountMismatchRow :=
  match row.feePolicyVersionId, row.fundedAmount, row.snapshotProtocolFeeRate with
  | some _, some fundedAmount, some rate =>
    let required := computeRequiredFundingAmount (ofUnits row.lockedUnits) (ofUnits rate)
    if fundedAmount = required then none else some ⟨row.id, fundedAmount, required⟩
  | _, _, _ => none

/-- The funded escrows whose amounts differ. -/
def findFundedAmountMismatches (rows : List FundedEscrow) : List FundedAmountMismatchRow :=
  rows.filterMap fundedAmountMismatch

/-- The reconciler reports the escrow. -/
def Reports (rows : List FundedEscrow) (escrowId : String) : Prop :=
  ∃ m ∈ findFundedAmountMismatches rows, m.escrowId = escrowId

/-- The reconciler agrees with the provider about an escrow : it does not report what the
provider accepts, and reports every other amount. -/
structure Reconciles (row : FundedEscrow) : Prop where
  accepted : ∀ required explorer result,
    lockFunds required explorer row.toMultisigEscrow = .ok result →
      ∀ rows, (rows.map FundedEscrow.id).Nodup → row.updateLockResult result ∈ rows →
        ¬Reports rows row.id
  differing : ∀ amount, toColumn amount = amount → amount ≠ row.requiredFundingSats →
    ∀ rows, (rows.map FundedEscrow.id).Nodup → { row with fundedAmount := some amount } ∈ rows →
      Reports rows row.id

/-! ## The two amounts -/

/-- The fee of a policy-aware escrow in satoshi, as a whole number. -/
theorem computeRequiredFundingAmount_units (n rate : ℕ) :
    computeRequiredFundingAmount (ofUnits n) (ofUnits rate) =
      decimal (n + productUnits n rate : ℕ) / 10 ^ 8 := by
  rw [computeRequiredFundingAmount, computeMaxProtocolFee, computeProtocolFee, product_units, plus,
    ← decimal_div_pow _ _ (by positivity), ofUnits, ofUnits]
  congr 1
  push_cast
  ring

theorem toColumn_computeRequiredFundingAmount (n rate : ℕ) :
    toColumn (computeRequiredFundingAmount (ofUnits n) (ofUnits rate)) =
      computeRequiredFundingAmount (ofUnits n) (ofUnits rate) := by
  obtain ⟨k, hk⟩ := decimal_natCast_whole (n + productUnits n rate)
  rw [computeRequiredFundingAmount_units, hk]
  exact toColumn_ofUnits k

/-- With the fee waived before funding, an escrow needs its locked amount. -/
theorem MultisigEscrow.requiredFundingSats_waived (escrow : MultisigEscrow)
    (h : escrow.snapshotFeeCollectionWaivedPreFunding = true) :
    escrow.requiredFundingSats = escrow.lockedUnits := by
  have hfee : escrow.maxFeeSats = 0 := by
    unfold maxFeeSats
    cases escrow.policyRate with
    | none => rfl
    | some rate => exact if_pos h
  rw [requiredFundingSats, expectedSats_eq, hfee, add_zero, numberOf_natCast escrow.lockedUnits_lt]

/-- With a reserve, an escrow needs its locked amount and the reserve. -/
theorem MultisigEscrow.requiredFundingSats_reserved (escrow : MultisigEscrow) {rate : ℕ}
    (hrate : escrow.policyRate = some rate)
    (h : escrow.snapshotFeeCollectionWaivedPreFunding = false) :
    escrow.requiredFundingSats =
      numberOf (escrow.lockedUnits + toUnits (ofUnits (productUnits escrow.lockedUnits rate))) := by
  rw [requiredFundingSats, expectedSats_eq, maxFeeSats, hrate]
  simp only [h, Bool.false_eq_true, if_false]
  rw [computeMaxProtocolFee, computeProtocolFee, product_units]

/-- The reserve in satoshi is more than in bitcoin, rounded or not. -/
theorem computeRequiredFundingAmount_lt {n : ℕ} (hn : 0 < n) (rate : ℕ) :
    computeRequiredFundingAmount (ofUnits n) (ofUnits rate) <
      numberOf (n + toUnits (ofUnits (productUnits n rate))) := by
  have hpos : (1 : ℚ) ≤ n := by exact_mod_cast hn
  set fee := productUnits n rate
  have hfee : (0 : ℚ) ≤ fee := by positivity
  have hunits := quarter_le_toUnits fee
  have hunits0 : (0 : ℚ) ≤ toUnits (ofUnits fee) := le_trans (by positivity) hunits
  have hnumber : ((n + toUnits (ofUnits fee) : ℤ) : ℚ) / 2 ≤
      numberOf (n + toUnits (ofUnits fee)) := half_le_numberOf (by
    have : 0 ≤ toUnits (ofUnits fee) := by exact_mod_cast hunits0
    omega)
  have hdecimal : decimal (n + fee : ℕ) ≤ 2 * (n + fee : ℕ) := decimal_le_double (by positivity)
  rw [computeRequiredFundingAmount_units, div_lt_iff₀ (by positivity)]
  push_cast at hnumber hdecimal ⊢
  nlinarith

/-- Which escrows have one amount in both. -/
theorem MultisigEscrow.requiredFundingSats_eq_iff (escrow : MultisigEscrow) {rate : ℕ}
    (hrate : escrow.policyRate = some rate) :
    (escrow.requiredFundingSats : ℚ) =
        computeRequiredFundingAmount (ofUnits escrow.lockedUnits) (ofUnits rate) ↔
      escrow.lockedUnits = 0 ∨ (escrow.snapshotFeeCollectionWaivedPreFunding = true ∧
        computeRequiredFundingAmount (ofUnits escrow.lockedUnits) (ofUnits rate) =
          10 ^ 8 * ofUnits escrow.lockedUnits) := by
  have hsats : (10 : ℚ) ^ 8 * ofUnits escrow.lockedUnits = escrow.lockedUnits := by
    rw [ofUnits]
    field_simp
  have hzero : computeRequiredFundingAmount (ofUnits 0) (ofUnits rate) = 0 := by
    have hfee : productUnits 0 rate = 0 := by
      rw [productUnits_eq (by norm_num), zero_mul, Nat.zero_div]
    rw [computeRequiredFundingAmount_units, hfee, decimal_natCast (by norm_num)]
    norm_num
  cases hwaived : escrow.snapshotFeeCollectionWaivedPreFunding with
  | true =>
    rw [escrow.requiredFundingSats_waived hwaived, hsats, Int.cast_natCast]
    constructor
    · exact fun h => .inr ⟨rfl, h.symm⟩
    · rintro (h | ⟨-, h⟩)
      · rw [h, hzero, Nat.cast_zero]
      · exact h.symm
  | false =>
    rw [escrow.requiredFundingSats_reserved hrate hwaived]
    rcases Nat.eq_zero_or_pos escrow.lockedUnits with h | h
    · have hfee : productUnits 0 rate = 0 := by
        rw [productUnits_eq (by norm_num), zero_mul, Nat.zero_div]
      refine iff_of_true ?_ (.inl h)
      rw [h, hzero, hfee, toUnits_ofUnits (by norm_num)]
      exact_mod_cast numberOf_natCast (n := 0) (by norm_num)
    · refine iff_of_false (computeRequiredFundingAmount_lt h rate).ne' ?_
      rintro (h' | ⟨h', -⟩)
      · exact h.ne' h'
      · cases h'

/-! ## Reports -/

/-- The report names a row when its amounts differ. -/
theorem reports_iff {rows : List FundedEscrow} (hids : (rows.map FundedEscrow.id).Nodup)
    {row : FundedEscrow} (hrow : row ∈ rows) :
    Reports rows row.id ↔ (fundedAmountMismatch row).isSome = true := by
  have hid : ∀ r m, fundedAmountMismatch r = some m → m.escrowId = r.id := by
    intro r m h
    unfold fundedAmountMismatch at h
    split at h
    · dsimp only at h
      split_ifs at h
      rw [← Option.some.inj h]
    · exact nomatch h
  rw [Reports, findFundedAmountMismatches, Option.isSome_iff_exists]
  constructor
  · rintro ⟨m, hm, hmid⟩
    obtain ⟨r, hr, hrm⟩ := List.mem_filterMap.mp hm
    have hsame : r = row := List.inj_on_of_nodup_map hids hr hrow ((hid r m hrm).symm.trans hmid)
    exact ⟨m, hsame ▸ hrm⟩
  · rintro ⟨m, hm⟩
    exact ⟨m, List.mem_filterMap.mpr ⟨row, hrow, hm⟩, hid row m hm⟩

theorem MultisigEscrow.policyRate_columns {escrow : MultisigEscrow} {rate : ℕ}
    (h : escrow.policyRate = some rate) :
    (∃ v, escrow.feePolicyVersionId = some v) ∧ escrow.snapshotProtocolFeeRate = some rate := by
  unfold policyRate at h
  split_ifs at h with hv
  obtain ⟨v, hv, -⟩ := (Option.any_eq_true _ _).mp hv
  exact ⟨⟨v, hv⟩, h⟩

/-- A policy-aware escrow is reported exactly when the amounts differ. -/
theorem reports_amount_iff {rows : List FundedEscrow} (hids : (rows.map FundedEscrow.id).Nodup)
    {row : FundedEscrow} {rate : ℕ} (hrate : row.policyRate = some rate) {amount : ℚ}
    (hrow : { row with fundedAmount := some amount } ∈ rows) :
    Reports rows row.id ↔
      amount ≠ computeRequiredFundingAmount (ofUnits row.lockedUnits) (ofUnits rate) := by
  obtain ⟨⟨v, hv⟩, hsnapshot⟩ := MultisigEscrow.policyRate_columns hrate
  have hmismatch : fundedAmountMismatch { row with fundedAmount := some amount } =
      if amount = computeRequiredFundingAmount (ofUnits row.lockedUnits) (ofUnits rate) then none
      else some ⟨row.id, amount,
        computeRequiredFundingAmount (ofUnits row.lockedUnits) (ofUnits rate)⟩ := by
    rw [fundedAmountMismatch, hv, hsnapshot]
  rw [reports_iff hids hrow, hmismatch]
  split_ifs with h
  · exact iff_of_false nofun (not_not.mpr h)
  · exact iff_of_true rfl h

theorem fundedBy_of_candidate {explorer : Explorer} {escrow : MultisigEscrow} {u : FundingUtxo}
    (h : findFundingCandidate explorer escrow = .ok (some u)) : escrow.fundedBy u = true := by
  obtain ⟨-, -, h⟩ := (bind_eq_ok_iff _ _ _).mp h
  obtain ⟨utxos, -, h⟩ := (bind_eq_ok_iff _ _ _).mp h
  exact List.find?_some ((pure_eq_ok_iff _ _).mp h)

/-- What the provider accepts for a policy-aware escrow is the amount it requires. -/
theorem fundedAmount_of_lockFunds {required : ℕ} {explorer : Explorer} {escrow : MultisigEscrow}
    {rate : ℕ} {result : FundingLock} (hrate : escrow.policyRate = some rate)
    (h : lockFunds required explorer escrow = .ok result) :
    ∃ value : ℕ, result.fundedAmount = some value ∧ (value : ℤ) = escrow.requiredFundingSats := by
  have haware : escrow.isPolicyAware = true := by rw [MultisigEscrow.isPolicyAware, hrate]; rfl
  rw [lockFunds] at h
  cases hfound : findFundingCandidate explorer escrow with
  | error e =>
    rw [hfound] at h
    cases h
  | ok candidate =>
    cases candidate with
    | none =>
      rw [hfound] at h
      cases h
    | some funding =>
      have hvalue := fundedBy_of_candidate hfound
      rw [MultisigEscrow.fundedBy, if_pos haware, Bool.and_eq_true, decide_eq_true_eq] at hvalue
      simp only [hfound, haware, if_true] at h
      cases hdepth : confirmationDepth explorer funding.txid with
      | error e =>
        rw [hdepth] at h
        cases h
      | ok seen =>
        simp only [hdepth] at h
        split_ifs at h
        rw [← Except.ok.inj h]
        exact ⟨funding.value, rfl, hvalue.1⟩

/-! ## Agreement -/

/-- The reconciler agrees with the provider exactly when nothing is locked, or the fee was
waived before funding and the rate makes the amount in bitcoin the locked satoshi. -/
theorem reconciles_iff {row : FundedEscrow} {rate : ℕ} (hrate : row.policyRate = some rate) :
    Reconciles row ↔ row.lockedUnits = 0 ∨ (row.snapshotFeeCollectionWaivedPreFunding = true ∧
      computeRequiredFundingAmount (ofUnits row.lockedUnits) (ofUnits rate) =
        10 ^ 8 * ofUnits row.lockedUnits) := by
  rw [← row.requiredFundingSats_eq_iff hrate]
  constructor
  · intro h
    by_contra hne
    -- the amount the reconciler recomputes is not reported, though it is not what is required
    have hreports := h.differing _ (toColumn_computeRequiredFundingAmount row.lockedUnits rate)
      (Ne.symm hne) [_] (List.nodup_singleton _) (List.mem_singleton_self _)
    exact (reports_amount_iff (by simp) hrate (List.mem_singleton_self _)).mp hreports rfl
  · intro hsame
    constructor
    · intro required explorer result hlock rows hids hrow
      obtain ⟨value, hvalue, hsats⟩ := fundedAmount_of_lockFunds hrate hlock
      rw [FundedEscrow.updateLockResult, hvalue] at hrow
      rw [reports_amount_iff hids hrate hrow, not_not, toColumn_natCast, ← hsame, ← hsats,
        Int.cast_natCast]
    · intro amount _ hne rows hids hrow
      rw [reports_amount_iff hids hrate hrow]
      exact fun h => hne (h.trans hsame.symm)

/-! An escrow of 100000 satoshi under a rate of one percent. -/

/-- An escrow of `lockedUnits` with a reserve of one percent. -/
def reservedEscrow (lockedUnits : ℕ) (h : lockedUnits ≤ maxMoney) : FundedEscrow where
  lockedUnits := lockedUnits
  lockedUnits_le := h
  feePolicyVersionId := some "policy"
  snapshotProtocolFeeRate := some 1000000
  snapshotFeeCollectionAddress := some "fees"
  snapshotFeeCollectionWaivedPreFunding := false
  id := "escrow"
  fundedAmount := none

/-- With nothing locked both amounts are zero, and one percent does not make up for the units. -/
theorem reconciles_nothing_locked : Reconciles (reservedEscrow 0 (by decide)) ∧
    ¬Reconciles (reservedEscrow 100000 (by decide)) :=
  ⟨(reconciles_iff rfl).mpr (.inl rfl), (reconciles_iff rfl).not.mpr (by simp [reservedEscrow])⟩

/-- A payment of 101000 satoshis. -/
def reservePayment : FundingUtxo where
  txid := "own"
  vout := 0
  value := 101000
  value_le := by decide
  confirmed := true

theorem reservedEscrow_requires :
    (reservedEscrow 100000 (by decide)).requiredFundingSats = 101000 := by
  rw [MultisigEscrow.requiredFundingSats_reserved _ rfl rfl]
  change numberOf (((100000 : ℕ) : ℤ) + toUnits (ofUnits (productUnits 100000 1000000))) = 101000
  rw [productUnits_eq (by norm_num), toUnits_ofUnits (by norm_num)]
  exact numberOf_natCast (n := 101000) (by norm_num)

/-- The funded escrow is reported : 101000 satoshi against 0.00101 bitcoin. -/
theorem funded_escrow_reported :
    ∃ result, lockFunds 3 (sixDeep [reservePayment])
        (reservedEscrow 100000 (by decide)).toMultisigEscrow = .ok result ∧
      Reports [(reservedEscrow 100000 (by decide)).updateLockResult result] "escrow" := by
  have hfunded : (reservedEscrow 100000 (by decide)).toMultisigEscrow.fundedBy reservePayment =
      true := by
    have haware : (reservedEscrow 100000 (by decide)).isPolicyAware = true := rfl
    rw [MultisigEscrow.fundedBy, if_pos haware, reservedEscrow_requires]
    rfl
  have hfound : findFundingCandidate (sixDeep [reservePayment])
      (reservedEscrow 100000 (by decide)).toMultisigEscrow = .ok (some reservePayment) := by
    change Except.ok ([reservePayment].find? _) = _
    rw [List.find?_cons_of_pos hfunded]
  refine ⟨⟨"own", 0, some 101000, some 100, some 105⟩, ?_, ?_⟩
  · rw [lockFunds, hfound]
    rfl
  · have hrow : { reservedEscrow 100000 (by decide) with
        fundedAmount := some (toColumn (101000 : ℕ)) } ∈
          [(reservedEscrow 100000 (by decide)).updateLockResult
            ⟨"own", 0, some 101000, some 100, some 105⟩] := List.mem_singleton_self _
    have hne := (MultisigEscrow.requiredFundingSats_eq_iff
      (reservedEscrow 100000 (by decide)).toMultisigEscrow rfl).not.mpr (by simp [reservedEscrow])
    rw [reservedEscrow_requires] at hne
    refine (reports_amount_iff (by simp) rfl hrow).mpr ?_
    rw [toColumn_natCast]
    exact_mod_cast hne

end Sails.Settlement
