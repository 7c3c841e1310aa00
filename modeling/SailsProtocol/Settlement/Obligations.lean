import SailsProtocol.Settlement.Spend

/-!
# Fee snapshots and recorded obligations

When an escrow is created, the published fee policy of its rail is frozen onto the row
(`escrow-fee-snapshot.service.ts`) : the rate, and either the collection address or the
decision that the largest fee cannot be collected there. A finished settlement records
what was owed (`fee-obligation.service.ts`), computing the fee again with decimals.

`snapshot_agrees` : a reserve has a frozen address it can be paid to, whatever the
configuration says later, the fee computed again is the fee in the transaction, and the
amount asked for is the amount the policy discloses as long as doubles hold it.
-/

namespace Sails.Settlement

open Numeric

/-! ## The snapshot -/

/-- Who pays the protocol's fee. -/
inductive FeePayerModel where
  | SELLER_PAYS
  deriving DecidableEq, Repr

/-- The value the fee is computed on. -/
inductive FeeEconomicBasis where
  | SELLER_DELIVERED_VALUE
  deriving DecidableEq, Repr

/-- A published policy. A negative rate is not published. -/
structure FeePolicyVersion where
  id : String
  protocolFeeRate : ℕ
  payerModel : FeePayerModel
  economicBasis : FeeEconomicBasis
  deriving DecidableEq, Repr

/-- The live configuration when the escrow is created. -/
structure FeeConfig where
  protocolFeeCollectionAddress : String
  toOutputScript : ToOutputScript

/-- Whether a fee can be collected, and where it goes. -/
structure FeeCollectibility where
  collectible : Bool
  collectionAddress : Option String
  deriving DecidableEq, Repr

/-- `evaluateFeeCollectibility`: the address the fee of `candidateFeeSats` is collected at, if any.
-/
def evaluateFeeCollectibility (config : FeeConfig) (candidateFeeSats : ℤ) :
    Except SpendError FeeCollectibility :=
  if candidateFeeSats ≤ 0 then .ok ⟨false, none⟩
  else
    let address := config.protocolFeeCollectionAddress
    if address = "" then .ok ⟨false, none⟩
    else
      match config.toOutputScript address with
      | none => .ok ⟨false, none⟩
      | some script =>
        match dustThresholdSats script with
        | .error e => .error e
        | .ok dustThreshold =>
          if candidateFeeSats < dustThreshold then .ok ⟨false, none⟩ else .ok ⟨true, some address⟩

/-- `findLivePolicyForRail`: the published policy of a rail, refused when there are several. -/
def findLivePolicyForRail (railScope : String) :
    List FeePolicyVersion → Except SpendError (Option FeePolicyVersion)
  | [] => .ok none
  | [policy] => .ok (some policy)
  | published => .error (.ambiguousPolicy railScope (published.map FeePolicyVersion.id))

/-- `FEE_COLLECTION_CAPABLE_RAILS`. -/
def feeCollectionCapableRails : List String := ["MULTISIG"]

/-- The rails that hold value of the users. -/
def realEscrowTypes : List String :=
  ["MULTISIG", "LIGHTNING_HODL", "SAFE_GUARD_EVM", "WDK_USDT_EVM", "MOCK"]

/-- `assertRailCanActivateFeeCollection`. -/
def assertRailCanActivateFeeCollection (railScope : String) : Except SpendError Unit :=
  ensure (railScope ∉ realEscrowTypes ∨ railScope ∈ feeCollectionCapableRails)
    (.railCannotCollect railScope)

/-- The columns of an escrow that freeze a policy. -/
structure FeeSnapshotFields where
  feePolicyVersionId : String
  snapshotProtocolFeeRate : ℕ
  snapshotPayerModel : FeePayerModel
  snapshotEconomicBasis : FeeEconomicBasis
  snapshotFeeCollectionAddress : Option String
  snapshotFeeCollectionWaivedPreFunding : Bool
  deriving DecidableEq, Repr

/-- The decision on the largest fee, at a rate above zero on a rail that can collect. -/
def decidePreFunding (config : FeeConfig) (railScope : String) (lockedUnits rate : ℕ) :
    Except SpendError (Option String × Bool) :=
  if 0 < rate ∧ railScope ∈ feeCollectionCapableRails then do
    let fmaxCandidateSats := toUnits (computeMaxProtocolFee (ofUnits lockedUnits) (ofUnits rate))
    let decision ← evaluateFeeCollectibility config fmaxCandidateSats
    if decision.collectible then pure (decision.collectionAddress, false) else pure (none, true)
  else .ok (none, false)

/-- `computeSnapshotFields`: what an escrow created now freezes. -/
def computeSnapshotFields (config : FeeConfig) (published : List FeePolicyVersion)
    (railScope : String) (lockedUnits : ℕ) : Except SpendError (Option FeeSnapshotFields) := do
  match ← findLivePolicyForRail railScope published with
  | none => pure none
  | some policy =>
    assertRailCanActivateFeeCollection railScope
    let (collectionAddress, waivedPreFunding) ←
      decidePreFunding config railScope lockedUnits policy.protocolFeeRate
    pure (some ⟨policy.id, policy.protocolFeeRate, policy.payerModel, policy.economicBasis,
      collectionAddress, waivedPreFunding⟩)

/-- The fee columns of an escrow are those computed when it was created : a trigger of
the database refuses to change them. -/
structure CreatedUnder (config : FeeConfig) (published : List FeePolicyVersion)
    (escrow : MultisigEscrow) : Prop where
  snapshot : ∃ fields, computeSnapshotFields config published "MULTISIG" escrow.lockedUnits =
      .ok fields ∧
    escrow.feePolicyVersionId = fields.map FeeSnapshotFields.feePolicyVersionId ∧
    escrow.snapshotProtocolFeeRate = fields.map FeeSnapshotFields.snapshotProtocolFeeRate ∧
    escrow.snapshotFeeCollectionAddress =
      fields.bind FeeSnapshotFields.snapshotFeeCollectionAddress ∧
    escrow.snapshotFeeCollectionWaivedPreFunding =
      fields.any FeeSnapshotFields.snapshotFeeCollectionWaivedPreFunding

/-! ## The obligation -/

/-- The three ways a settlement can end for the fee. -/
inductive FeeOutcome where
  | RELEASE
  | FULL_REFUND
  | SPLIT
  deriving DecidableEq, Repr

/-- Whether a fee is owed. -/
inductive FeeEconomicDetermination where
  | OWED
  | NOT_APPLICABLE
  deriving DecidableEq, Repr

/-- How far the collection of a fee has come. -/
inductive FeeCollectionStatus where
  | PENDING_COLLECTION
  | IN_PROGRESS
  | WAIVED
  | UNCOLLECTIBLE_BYPASSED
  | COLLECTED
  | DISTRIBUTED
  deriving DecidableEq, Repr

/-- The columns of an escrow an obligation is computed from. -/
structure EscrowForFeeObligation extends MultisigEscrow where
  id : String
  asset : String
  deriving DecidableEq, Repr

/-- A row of fee obligation. -/
structure FeeObligation where
  escrowId : String
  feePolicyVersionId : String
  economicDetermination : FeeEconomicDetermination
  collectionStatus : Option FeeCollectionStatus
  basisAmount : Option ℚ
  computedFee : Option ℚ
  asset : Option String
  deriving DecidableEq

/-- The seller's share of the amount for a split, and the whole amount otherwise. -/
def basisAmount (escrow : MultisigEscrow) (outcome : FeeOutcome) (splitBuyerBps : Option ℤ) : ℚ :=
  match outcome with
  | .SPLIT => toDecimalPlaces 8
      (dividedBy (times (ofUnits escrow.lockedUnits) (10000 - splitBuyerBps.getD 0 : ℤ)) 10000)
  | _ => ofUnits escrow.lockedUnits

/-- The fee of a settlement, computed again from the frozen rate. -/
def computedFee (escrow : MultisigEscrow) (rate : ℕ) (outcome : FeeOutcome)
    (splitBuyerBps : Option ℤ) : ℚ :=
  computeProtocolFee (basisAmount escrow outcome splitBuyerBps) (ofUnits rate)

/-- The row a finished settlement adds, if it adds one. `smallTradeWaives` is the rule of
the policy, which is asked only when no transaction was built. -/
def recordObligationForEscrowSettlement (smallTradeWaives : ℚ → Bool)
    (existing : Option FeeObligation) (escrow : EscrowForFeeObligation) (outcome : FeeOutcome)
    (splitBuyerBps : Option ℤ) (actualCollection : Option FeeCollectionResult) :
    Option FeeObligation :=
  match escrow.feePolicyVersionId.filter (· ≠ "") with
  | none => none
  | some feePolicyVersionId =>
    match existing with
    | some _ => none
    | none =>
      if outcome = .FULL_REFUND then
        some ⟨escrow.id, feePolicyVersionId, .NOT_APPLICABLE, none, none, none, none⟩
      else
        match escrow.snapshotProtocolFeeRate with
        | none => none
        | some rate =>
          let basis := basisAmount escrow.toMultisigEscrow outcome splitBuyerBps
          let fee := computedFee escrow.toMultisigEscrow rate outcome splitBuyerBps
          let waived := match actualCollection with
            | some actual => actual.waived
            | none => smallTradeWaives fee
          let recordedFee := match actualCollection with
            | some actual => if waived then fee else dividedBy actual.feeSats (10 ^ 8)
            | none => fee
          some ⟨escrow.id, feePolicyVersionId, .OWED,
            some (if waived then .WAIVED else .PENDING_COLLECTION), some basis,
            some recordedFee, some escrow.asset⟩

/-! ## A reserve has an address -/

/-- A collectible fee has an address. -/
theorem evaluateFeeCollectibility_collectible {config : FeeConfig} {candidateFeeSats : ℤ}
    {decision : FeeCollectibility}
    (h : evaluateFeeCollectibility config candidateFeeSats = .ok decision)
    (hcollectible : decision.collectible = true) :
    ∃ address, decision.collectionAddress = some address ∧ address ≠ "" ∧
      ClearsDust config.toOutputScript (some address) candidateFeeSats := by
  simp only [evaluateFeeCollectibility] at h
  split_ifs at h with hfee hempty
  · cases h
    cases hcollectible
  · cases h
    cases hcollectible
  · cases hscript : config.toOutputScript config.protocolFeeCollectionAddress with
    | none =>
      rw [hscript] at h
      cases h
      cases hcollectible
    | some script =>
      cases hdust : dustThresholdSats script with
      | error e => simp [hscript, hdust] at h
      | ok dustThreshold =>
        simp only [hscript, hdust] at h
        split_ifs at h with hlt
        · cases h
          cases hcollectible
        · cases h
          exact ⟨_, rfl, hempty, script, dustThreshold, hscript, hdust, not_lt.mp hlt⟩

/-- A fee which is not waived before funding clears dust at its address. -/
theorem decidePreFunding_collects {config : FeeConfig} {lockedUnits rate : ℕ}
    {address : Option String} (hrate : 0 < rate)
    (h : decidePreFunding config "MULTISIG" lockedUnits rate = .ok (address, false)) :
    ∃ a, address = some a ∧ a ≠ "" ∧ ClearsDust config.toOutputScript (some a)
      (toUnits (computeMaxProtocolFee (ofUnits lockedUnits) (ofUnits rate))) := by
  rw [decidePreFunding, if_pos ⟨hrate, by decide⟩, bind_eq_ok_iff] at h
  obtain ⟨decision, hdecision, h⟩ := h
  split_ifs at h with hcollectible
  · simp only [pure_eq_ok_iff, Prod.mk.injEq, and_true] at h
    rw [← h]
    exact evaluateFeeCollectibility_collectible hdecision hcollectible
  · simp [pure_eq_ok_iff] at h

/-- What a snapshot holds. -/
theorem computeSnapshotFields_some {config : FeeConfig} {published : List FeePolicyVersion}
    {railScope : String} {lockedUnits : ℕ} {fields : FeeSnapshotFields}
    (h : computeSnapshotFields config published railScope lockedUnits = .ok (some fields)) :
    decidePreFunding config railScope lockedUnits fields.snapshotProtocolFeeRate =
      .ok (fields.snapshotFeeCollectionAddress, fields.snapshotFeeCollectionWaivedPreFunding) := by
  simp only [computeSnapshotFields, bind_eq_ok_iff] at h
  obtain ⟨live, -, h⟩ := h
  cases live with
  | none => simp [pure_eq_ok_iff] at h
  | some policy =>
    simp only [bind_eq_ok_iff, pure_eq_ok_iff, Option.some.injEq] at h
    obtain ⟨⟨⟩, -, ⟨address, waived⟩, hdecide, rfl⟩ := h
    exact hdecide

section Agreement

variable {config : FeeConfig} {published : List FeePolicyVersion} {escrow : MultisigEscrow}

/-- The largest fee at a rate of zero is zero. -/
theorem MultisigEscrow.rate_pos {rate : ℕ} (hrate : escrow.policyRate = some rate)
    (hpos : 0 < escrow.maxFeeSats) : 0 < rate := by
  rcases Nat.eq_zero_or_pos rate with rfl | h
  · have hzero : escrow.maxFeeSats = 0 := by
      rw [maxFeeSats_eq hrate hpos, sellerFeeSats_zero, computeMaxProtocolFee, computeProtocolFee,
        product_units, productUnits_eq (by norm_num), mul_zero, Nat.zero_div]
      exact toUnits_ofUnits (by norm_num)
    omega
  · exact h

/-- A reserve was decided on before funding. -/
theorem MultisigEscrow.waived_of_pos (h : 0 < escrow.maxFeeSats) :
    escrow.snapshotFeeCollectionWaivedPreFunding = false := by
  cases hwaived : escrow.snapshotFeeCollectionWaivedPreFunding with
  | false => rfl
  | true =>
    unfold maxFeeSats at h
    split at h
    · exact absurd h (lt_irrefl _)
    · simp only [hwaived, if_true, lt_irrefl] at h

theorem MultisigEscrow.policyRate_eq_some {rate : ℕ} (h : escrow.policyRate = some rate) :
    escrow.snapshotProtocolFeeRate = some rate := by
  unfold policyRate at h
  split_ifs at h
  exact h

/-- An escrow with a reserve has frozen an address at which the reserve clears dust. -/
theorem CreatedUnder.frozen (h : CreatedUnder config published escrow)
    (hpos : 0 < escrow.maxFeeSats) : ∃ address, address ≠ "" ∧
      escrow.snapshotFeeCollectionAddress = some address ∧
      ClearsDust config.toOutputScript (some address) escrow.maxFeeSats := by
  obtain ⟨rate, hrate⟩ := Option.isSome_iff_exists.mp (isPolicyAware_of_reserve hpos)
  have hsnapshot := MultisigEscrow.policyRate_eq_some hrate
  have hwaived := MultisigEscrow.waived_of_pos hpos
  obtain ⟨_ | fields, hfields, -, hr, haddress, hw⟩ := h
  · simp [hsnapshot] at hr
  · have hdecide := computeSnapshotFields_some hfields
    simp only [hsnapshot, Option.map_some, Option.some.injEq] at hr
    rw [Option.any_some, hwaived] at hw
    rw [← hr, ← hw] at hdecide
    obtain ⟨address, ha, hne, hdust⟩ :=
      decidePreFunding_collects (MultisigEscrow.rate_pos hrate hpos) hdecide
    refine ⟨address, hne, by rw [haddress, Option.bind_some, ha], ?_⟩
    rwa [MultisigEscrow.maxFeeSats_eq hrate hpos, escrow.sellerFeeSats_zero]

/-- With a frozen address the fee is never without one. -/
theorem decideFeeCollection_frozen {address : String} (hne : address ≠ "")
    (haddress : escrow.snapshotFeeCollectionAddress = some address)
    (toOutputScript : ToOutputScript) (basisAmountBtc : ℚ) (feeSats : ℤ) :
    decideFeeCollection toOutputScript escrow basisAmountBtc ≠ .error (.noFrozenAddress feeSats) := by
  intro h
  unfold decideFeeCollection at h
  split at h
  · cases h
  · simp only [haddress, Option.filter, hne, ne_eq, not_false_eq_true, decide_true, if_true] at h
    split_ifs at h
    split at h
    · cases h
    · split at h
      · next hdust =>
        cases h
        simp only [dustThresholdSats] at hdust
        split_ifs at hdust
        cases hdust
      · split_ifs at h

/-! ## The fee computed again -/

/-- A reserve that doubles hold is a whole number of satoshi. -/
theorem MultisigEscrow.maxFeeSats_units {rate : ℕ} (hrate : escrow.policyRate = some rate)
    (hwaived : escrow.snapshotFeeCollectionWaivedPreFunding = false)
    (hlt : escrow.maxFeeSats < 2 ^ 53) :
    escrow.maxFeeSats = productUnits escrow.lockedUnits rate := by
  have hfee : escrow.maxFeeSats = toUnits (ofUnits (productUnits escrow.lockedUnits rate)) := by
    simp only [maxFeeSats, hrate, hwaived, Bool.false_eq_true, if_false, computeMaxProtocolFee,
      computeProtocolFee, product_units]
  rw [hfee] at hlt ⊢
  exact toUnits_ofUnits (lt_of_toUnits_lt hlt)

/-- The decimal share of the seller is the share in satoshi. -/
theorem basisAmount_split {buyerBps : ℤ} (h : 0 ≤ buyerBps) (h' : buyerBps ≤ 10000) :
    basisAmount escrow .SPLIT (some buyerBps) =
      ofUnits (escrow.sellerBasisSats buyerBps).toNat := by
  obtain ⟨k, hk⟩ : ∃ k : ℕ, 10000 - buyerBps = k := ⟨_, (Int.toNat_of_nonneg (by omega)).symm⟩
  have hle : escrow.lockedUnits * k ≤ 2100000000000000 * 10000 :=
    Nat.mul_le_mul escrow.lockedUnits_le (by omega)
  have htimes : times (ofUnits escrow.lockedUnits) k = ofUnits (escrow.lockedUnits * k) := by
    have hmul : ofUnits escrow.lockedUnits * k = ofUnits (escrow.lockedUnits * k) := by
      rw [ofUnits, ofUnits]
      push_cast
      ring
    rw [times, hmul, decimal_ofUnits (by omega)]
  have hdivided : dividedBy (ofUnits (escrow.lockedUnits * k)) 10000 =
      (escrow.lockedUnits * k : ℕ) / 10 ^ 12 := by
    rw [dividedBy, ofUnits, div_div, show (10 : ℚ) ^ 8 * 10000 = 10 ^ 12 by norm_num,
      decimal_div_pow _ _ (by positivity), decimal_natCast (by omega)]
  have hcut : toDecimalPlaces 8 (((escrow.lockedUnits * k : ℕ) : ℚ) / 10 ^ 12) =
      ofUnits (escrow.lockedUnits * k / 10000) := by
    have hscale : ((escrow.lockedUnits * k : ℕ) : ℚ) / 10 ^ 12 * 10 ^ 8 =
        (escrow.lockedUnits * k : ℕ) / (10000 : ℕ) := by
      push_cast
      field_simp
      norm_num
    rw [toDecimalPlaces, hscale, truncate, if_pos (by positivity), ofUnits,
      ← natCast_floor_eq_intCast_floor (by positivity), Nat.floor_div_eq_div]
  rw [escrow.sellerBasisSats_eq h h', Int.toNat_natCast, basisAmount, Option.getD_some, hk,
    Int.cast_natCast, htimes, hdivided, hcut, Int.toNat_natCast]

end Agreement

/-- How a settlement is booked. -/
def SettlementRequest.feeOutcome : SettlementRequest → FeeOutcome
  | .release _ => .RELEASE
  | .refund _ => .FULL_REFUND
  | .split _ _ _ => .SPLIT

/-- The buyer's basis points of a split. -/
def SettlementRequest.splitBuyerBps : SettlementRequest → Option ℤ
  | .split _ _ buyerBps => some buyerBps
  | _ => none

/-- A split divides : neither party gets everything. -/
def SettlementRequest.Divides (request : SettlementRequest) : Prop :=
  ∀ buyerBps ∈ request.splitBuyerBps, 1 ≤ buyerBps ∧ buyerBps ≤ 9999

section Built

variable {env : Deployment} {escrow : SpendInput} {r : BuiltSpend} {rate : ℕ}
  {fc : FeeCollectionResult}

/-- A release collects the whole reserve. -/
theorem release_feeCollection {toAddress : String}
    (h : buildUnsignedRelease env escrow toAddress = .ok r) (hfc : r.feeCollection = some fc) :
    fc = ⟨escrow.maxFeeSats, escrow.maxFeeSats = 0⟩ := by
  simp only [buildUnsignedRelease, bind_eq_ok_iff, pure_eq_ok_iff] at h
  obtain ⟨spend, -, signers, -, rfl⟩ := h
  simp only at hfc
  split_ifs at hfc
  exact (Option.some.inj hfc).symm

/-- A split collects what it decided. -/
theorem split_feeCollection {buyerAddress sellerAddress : String} {buyerBps : ℤ}
    {decision : FeeDecision}
    (h : buildUnsignedSplit env escrow buyerAddress sellerAddress buyerBps = .ok r)
    (hdecision : splitFeeDecision env.toOutputScript escrow.toMultisigEscrow buyerBps =
      .ok decision)
    (hfc : r.feeCollection = some fc) :
    fc = ⟨if decision.waived then 0 else decision.feeSats, decision.waived⟩ := by
  simp only [buildUnsignedSplit, bind_eq_ok_iff, pure_eq_ok_iff, hdecision, Except.ok.injEq] at h
  obtain ⟨_, rfl, spend, -, -, -, buyer, -, rfl⟩ := h
  cases haware : escrow.isPolicyAware with
  | false => simp [haware] at hfc
  | true => simpa only [haware, if_true, Option.some.injEq, eq_comm] using hfc

/-- A refund collects nothing. -/
theorem refund_feeCollection {authorizedDestination : Option String}
    (h : buildUnsignedRefund env escrow authorizedDestination = .ok r) :
    r.feeCollection = none := by
  simp only [buildUnsignedRefund, bind_eq_ok_iff, pure_eq_ok_iff] at h
  obtain ⟨-, -, spend, -, signers, -, rfl⟩ := h
  rfl

/-- A release that was built has a reserve the wallet's doubles hold exactly. -/
theorem release_reserve_lt {toAddress : String}
    (h : buildUnsignedRelease env escrow toAddress = .ok r) : escrow.maxFeeSats < 2 ^ 53 := by
  obtain ⟨hc, value, hout⟩ := release_conserves h
  rcases escrow.maxFeeSats_nonneg.eq_or_lt with hzero | hpos
  · rw [← hzero]
    norm_num
  · rw [if_pos hpos] at hout
    have hsum := hc.sum
    have hvalue : 0 < value := (hc.dust ⟨some toAddress, value⟩ (by simp [hout])).pos
    have hle := r.utxo.value_le
    have hminer := hc.fee_nonneg
    simp only [hout, spendTotal, List.map_cons, List.map_nil, List.sum_cons, List.sum_nil] at hsum
    rw [maxMoney] at hle
    omega

/-- A split that was built has a reserve the wallet's doubles hold exactly. -/
theorem split_reserve_lt {buyerAddress sellerAddress : String} {buyerBps : ℤ} (hbps : 1 ≤ buyerBps)
    (h : buildUnsignedSplit env escrow buyerAddress sellerAddress buyerBps = .ok r) :
    escrow.maxFeeSats < 2 ^ 53 := by
  obtain ⟨hc, decision, -, hout⟩ := split_conserves h
  have hbuyer := hc.dust _ (by rw [hout, splitOutputs]; exact List.mem_cons_self)
  have hpool := pos_of_mul_pos_left (tdiv_eq_of_pos hbuyer.pos).1 (by omega)
  have hle := r.utxo.value_le
  have hminer := hc.fee_nonneg
  rw [maxMoney] at hle
  omega

/-- The fee computed again is the one in the transaction, also after the conversion that
the two are compared in, and at most the reserve. -/
structure FeeAgrees (escrow : MultisigEscrow) (fc : FeeCollectionResult) (fee : ℚ) : Prop where
  built : fc.waived = false → fee * 10 ^ 8 = fc.feeSats
  compared : fc.waived = false → dividedBy fc.feeSats (10 ^ 8) = fee
  reserve : escrow.snapshotFeeCollectionWaivedPreFunding = false → fee * 10 ^ 8 ≤ escrow.maxFeeSats

theorem ofUnits_mul (n : ℕ) : ofUnits n * 10 ^ 8 = n := by
  rw [ofUnits, div_mul_cancel₀ _ (by positivity)]

/-- The fee of a build agrees with a computed one of as many satoshis. -/
theorem feeAgrees_of_units {escrow : MultisigEscrow} {n : ℕ}
    (hbuilt : fc.waived = false → fc.feeSats = n ∧ fc.feeSats < 2 ^ 53)
    (hreserve : escrow.snapshotFeeCollectionWaivedPreFunding = false → n ≤ escrow.maxFeeSats) :
    FeeAgrees escrow fc (ofUnits n) := by
  refine ⟨fun hw => ?_, fun hw => ?_, fun hw => ?_⟩
  · rw [ofUnits_mul, (hbuilt hw).1, Int.cast_natCast]
  · obtain ⟨heq, hlt⟩ := hbuilt hw
    rw [dividedBy, heq, Int.cast_natCast]
    exact decimal_ofUnits (by omega)
  · rw [ofUnits_mul]
    exact_mod_cast hreserve hw

/-- The fee of a release is the one the obligation records. -/
theorem release_feeAgrees {toAddress : String} (hrate : escrow.policyRate = some rate)
    (h : buildUnsignedRelease env escrow toAddress = .ok r) (hfc : r.feeCollection = some fc) :
    FeeAgrees escrow.toMultisigEscrow fc
      (computedFee escrow.toMultisigEscrow rate .RELEASE none) := by
  have hlt := release_reserve_lt h
  have hunits := fun hw => MultisigEscrow.maxFeeSats_units hrate hw hlt
  have hfee : computedFee escrow.toMultisigEscrow rate .RELEASE none =
      ofUnits (productUnits escrow.lockedUnits rate) :=
    product_units _ _
  rw [release_feeCollection h hfc, hfee]
  refine feeAgrees_of_units (fun hcollected => ⟨?_, hlt⟩) fun hw => (hunits hw).ge
  have hne : escrow.maxFeeSats ≠ 0 := by simpa using hcollected
  have hpos := lt_of_le_of_ne escrow.maxFeeSats_nonneg hne.symm
  exact hunits (MultisigEscrow.waived_of_pos hpos)

/-- The fee of a split is the one the obligation records. -/
theorem split_feeAgrees {buyerAddress sellerAddress : String} {buyerBps : ℤ}
    (hlow : 1 ≤ buyerBps) (hhigh : buyerBps ≤ 9999) (hrate : escrow.policyRate = some rate)
    (h : buildUnsignedSplit env escrow buyerAddress sellerAddress buyerBps = .ok r)
    (hfc : r.feeCollection = some fc) :
    FeeAgrees escrow.toMultisigEscrow fc
      (computedFee escrow.toMultisigEscrow rate .SPLIT (some buyerBps)) := by
  have hfee : computedFee escrow.toMultisigEscrow rate .SPLIT (some buyerBps) =
      ofUnits (productUnits (escrow.sellerBasisSats buyerBps).toNat rate) := by
    rw [computedFee, basisAmount_split (by omega) (by omega), computeProtocolFee, product_units]
  obtain ⟨hc, decision, hdecision, hout⟩ := split_conserves h
  rw [split_feeCollection h hdecision hfc, hfee]
  refine feeAgrees_of_units (fun hcollected => ?_) fun hw => ?_
  · obtain ⟨rate', address, hrate', hpos, -, rfl, hcollect⟩ :=
      splitFeeDecision_collected hdecision hcollected
    rw [hrate, Option.some.injEq] at hrate'
    subst hrate'
    obtain ⟨-, -, hsmall⟩ := collected_bounds hc hpos hrate hcollect hout
    have hsats := escrow.sellerFeeSats_units rate (by omega) (show buyerBps ≤ 10000 by omega)
    refine ⟨?_, hsmall⟩
    rw [hsats] at hsmall
    simp only [Bool.false_eq_true, if_false, hsats, toUnits_ofUnits (lt_of_toUnits_lt hsmall)]
  · have hbasis : (escrow.sellerBasisSats buyerBps).toNat ≤ escrow.lockedUnits := by
      rw [escrow.sellerBasisSats_eq (by omega) (by omega), Int.toNat_natCast]
      refine Nat.div_le_of_le_mul ?_
      rw [mul_comm 10000]
      exact Nat.mul_le_mul_left _ (by omega)
    rw [MultisigEscrow.maxFeeSats_units hrate hw (split_reserve_lt hlow h)]
    exact_mod_cast productUnits_mono hbasis

/-- The fee of a settlement is the one the obligation records. -/
theorem build_feeAgrees {request : SettlementRequest} (hdivides : request.Divides)
    (hrate : escrow.policyRate = some rate) (h : build env escrow request = .ok r)
    (hfc : r.feeCollection = some fc) :
    FeeAgrees escrow.toMultisigEscrow fc
      (computedFee escrow.toMultisigEscrow rate request.feeOutcome request.splitBuyerBps) := by
  cases request with
  | release toAddress => exact release_feeAgrees hrate h hfc
  | refund authorizedDestination =>
    rw [refund_feeCollection h] at hfc
    cases hfc
  | split buyerAddress sellerAddress buyerBps =>
    obtain ⟨hlow, hhigh⟩ := hdivides buyerBps rfl
    exact split_feeAgrees hlow hhigh hrate h hfc

/-- The row a settlement adds holds the fee computed again. -/
theorem recorded_computedFee (escrow : EscrowForFeeObligation) {smallTradeWaives : ℚ → Bool}
    {existing : Option FeeObligation} {outcome : FeeOutcome} {splitBuyerBps : Option ℤ}
    {obligation : FeeObligation} (hrate : escrow.policyRate = some rate)
    (hagrees : FeeAgrees escrow.toMultisigEscrow fc
      (computedFee escrow.toMultisigEscrow rate outcome splitBuyerBps))
    (h : recordObligationForEscrowSettlement smallTradeWaives existing escrow outcome
      splitBuyerBps (some fc) = some obligation) (howed : obligation.economicDetermination = .OWED) :
    obligation.computedFee =
      some (computedFee escrow.toMultisigEscrow rate outcome splitBuyerBps) := by
  unfold recordObligationForEscrowSettlement at h
  split at h
  · cases h
  · split at h
    · cases h
    · split_ifs at h with hrefund
      · cases h
        cases howed
      · rw [MultisigEscrow.policyRate_eq_some hrate] at h
        cases h
        cases hw : fc.waived with
        | true => simp only [hw, if_true]
        | false => simp only [hw, Bool.false_eq_true, if_false, hagrees.compared hw]

end Built

/-! ## The funding -/

/-- The amount asked for is the amount disclosed, when doubles hold it. -/
theorem MultisigEscrow.requiredFundingSats_eq {escrow : MultisigEscrow} {rate : ℕ}
    (hrate : escrow.policyRate = some rate)
    (hwaived : escrow.snapshotFeeCollectionWaivedPreFunding = false)
    (hlt : escrow.lockedUnits + escrow.maxFeeSats < 2 ^ 53) :
    (escrow.requiredFundingSats : ℚ) =
      computeRequiredFundingAmount (ofUnits escrow.lockedUnits) (ofUnits rate) * 10 ^ 8 := by
  have hunits := maxFeeSats_units hrate hwaived (by omega)
  have hsum : escrow.lockedUnits + productUnits escrow.lockedUnits rate < 2 ^ 53 := by omega
  have hadd : ofUnits escrow.lockedUnits + ofUnits (productUnits escrow.lockedUnits rate) =
      ofUnits (escrow.lockedUnits + productUnits escrow.lockedUnits rate) := by
    rw [ofUnits, ofUnits, ofUnits, ← add_div, Nat.cast_add]
  rw [requiredFundingSats, escrow.expectedSats_eq, hunits, computeRequiredFundingAmount,
    computeMaxProtocolFee, computeProtocolFee, product_units, plus, hadd,
    decimal_ofUnits (by omega), ofUnits_mul, ← Nat.cast_add, numberOf_natCast hsum,
    Int.cast_natCast]

/-! ## Agreement -/

/-- The snapshot, the transactions built from it and the rows booked for them agree. -/
structure SnapshotAgrees (config : FeeConfig) (escrow : SpendInput) : Prop where
  /-- A reserve can be paid to the address that was frozen. -/
  frozen : 0 < escrow.maxFeeSats → ∃ address, address ≠ "" ∧
    escrow.snapshotFeeCollectionAddress = some address ∧
    ClearsDust config.toOutputScript (some address) escrow.maxFeeSats
  /-- The error called impossible is, under any later configuration. -/
  decided : 0 < escrow.maxFeeSats → ∀ toOutputScript basisAmountBtc feeSats,
    decideFeeCollection toOutputScript escrow.toMultisigEscrow basisAmountBtc ≠
      .error (.noFrozenAddress feeSats)
  /-- The fee computed again is the fee built in, and at most the reserve unless it was
  waived before funding. -/
  agrees : ∀ env request r fc rate, request.Divides → build env escrow request = .ok r →
    r.feeCollection = some fc → escrow.policyRate = some rate →
    FeeAgrees escrow.toMultisigEscrow fc
      (computedFee escrow.toMultisigEscrow rate request.feeOutcome request.splitBuyerBps)
  /-- It is the fee of the row that is booked. -/
  booked : ∀ env request r fc rate, request.Divides → build env escrow request = .ok r →
    r.feeCollection = some fc → escrow.policyRate = some rate →
    ∀ smallTradeWaives existing id asset obligation,
      recordObligationForEscrowSettlement smallTradeWaives existing
        ⟨escrow.toMultisigEscrow, id, asset⟩ request.feeOutcome request.splitBuyerBps (some fc) =
        some obligation → obligation.economicDetermination = .OWED →
      obligation.computedFee = some
        (computedFee escrow.toMultisigEscrow rate request.feeOutcome request.splitBuyerBps)
  /-- The funding asked for is the funding disclosed, as long as doubles hold it. -/
  funding : ∀ rate, escrow.policyRate = some rate →
    escrow.snapshotFeeCollectionWaivedPreFunding = false →
    escrow.lockedUnits + escrow.maxFeeSats < 2 ^ 53 →
    (escrow.requiredFundingSats : ℚ) =
      computeRequiredFundingAmount (ofUnits escrow.lockedUnits) (ofUnits rate) * 10 ^ 8

theorem snapshot_agrees {config : FeeConfig} {published : List FeePolicyVersion}
    {escrow : SpendInput} (h : CreatedUnder config published escrow.toMultisigEscrow) :
    SnapshotAgrees config escrow := by
  refine ⟨h.frozen, fun hpos => ?_, ?_, ?_, ?_⟩
  · obtain ⟨address, hne, haddress, -⟩ := h.frozen hpos
    exact decideFeeCollection_frozen hne haddress
  · intro env request r fc rate hdivides hbuild hfc hrate
    exact build_feeAgrees hdivides hrate hbuild hfc
  · intro env request r fc rate hdivides hbuild hfc hrate smallTradeWaives existing id asset
      obligation hrecorded howed
    have hagrees := build_feeAgrees hdivides hrate hbuild hfc
    exact recorded_computedFee ⟨escrow.toMultisigEscrow, id, asset⟩ hrate hagrees hrecorded howed
  · intro rate hrate hwaived hlt
    exact MultisigEscrow.requiredFundingSats_eq hrate hwaived hlt

/-- A configuration with an address for the fee. -/
def sampleConfig : FeeConfig where
  protocolFeeCollectionAddress := sampleSails
  toOutputScript := sampleToOutputScript

/-- A published policy of a rate. -/
def samplePolicy (rate : ℕ) : FeePolicyVersion :=
  ⟨"v1", rate, .SELLER_PAYS, .SELLER_DELIVERED_VALUE⟩

/-- What is frozen under the sample policy. -/
def sampleSnapshot (rate : ℕ) (address : Option String) (waived : Bool) : FeeSnapshotFields :=
  ⟨"v1", rate, .SELLER_PAYS, .SELLER_DELIVERED_VALUE, address, waived⟩

theorem snapshot_agrees_sample :
    CreatedUnder sampleConfig [samplePolicy 1000000]
      (sampleEscrow 10000000 (by decide) 1000000).toMultisigEscrow ∧
    SnapshotAgrees sampleConfig (sampleEscrow 10000000 (by decide) 1000000) := by
  have hcreated : CreatedUnder sampleConfig [samplePolicy 1000000]
      (sampleEscrow 10000000 (by decide) 1000000).toMultisigEscrow :=
    ⟨some (sampleSnapshot 1000000 (some sampleSails) false), by decide +kernel, rfl, rfl, rfl, rfl⟩
  exact ⟨hcreated, snapshot_agrees hcreated⟩

/-- Twenty thousand satoshi at one percent, which is below the dust threshold. -/
def waivedEscrow : SpendInput :=
  { sampleEscrow 20000 (by decide) 1000000 with
    snapshotFeeCollectionAddress := none
    snapshotFeeCollectionWaivedPreFunding := true }

/-- A fee waived before funding is computed again above the reserve of nothing, and at a
rate of four the funding asked for is rounded to an even number. -/
theorem snapshot_disagrees :
    (∃ r, CreatedUnder sampleConfig [samplePolicy 1000000] waivedEscrow.toMultisigEscrow ∧
      build (sampleDeployment ⟨"funding", 0, 20000, by decide⟩) waivedEscrow
        (.release sampleBuyer) = .ok r ∧ r.feeCollection = some ⟨0, true⟩ ∧
      waivedEscrow.maxFeeSats <
        computedFee waivedEscrow.toMultisigEscrow 1000000 .RELEASE none * 10 ^ 8) ∧
    let escrow := sampleEscrow 2099999999999999 (by decide) 400000000
    CreatedUnder sampleConfig [samplePolicy 400000000] escrow.toMultisigEscrow ∧
      escrow.snapshotFeeCollectionWaivedPreFunding = false ∧
      (escrow.requiredFundingSats : ℚ) ≠ computeRequiredFundingAmount
        (ofUnits escrow.lockedUnits) (ofUnits 400000000) * 10 ^ 8 := by
  refine ⟨⟨⟨⟨"funding", 0, 20000, by decide⟩, [⟨some sampleBuyer, 19836⟩], ["buyer"],
    some ⟨0, true⟩, 164⟩, ?_, by decide +kernel, rfl, by decide +kernel⟩, ?_, rfl,
    by decide +kernel⟩
  · exact ⟨some (sampleSnapshot 1000000 none true), by decide +kernel, rfl, rfl, rfl, rfl⟩
  · exact ⟨some (sampleSnapshot 400000000 (some sampleSails) false), by decide +kernel,
      rfl, rfl, rfl, rfl⟩

end Sails.Settlement
