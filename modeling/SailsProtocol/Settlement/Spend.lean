import SailsProtocol.Settlement.Fees
import SailsProtocol.Settlement.Outcome

/-!
# Building a settlement transaction

A release, a refund and a split spend the one funding output of a MULTISIG escrow
(`multisig.provider.ts`). They share `buildUnsignedSpend`, which estimates the miner fee
from the number of outputs, refuses a fee above the ceiling, lets the caller divide what
is left, and refuses an output below the dust threshold of its script.

`buildUnsignedSpend_ok` lists what a built spend has passed. `settlement_conserves_iff` :
no satoshi is lost or made in a built transaction, and its outputs are what the fee
snapshot and the split say, exactly when the fee on the seller's share does not carry in
twenty-digit arithmetic.
-/

namespace Sails.Settlement

open Numeric

/-- An unspent output as the explorer reports it. -/
structure ExplorerUtxo where
  txid : String
  vout : ℕ
  value : ℕ
  /-- No output is worth more than all the bitcoin there can be. -/
  value_le : value ≤ maxMoney
  deriving Repr

instance : DecidableEq ExplorerUtxo := fun a b =>
  decidable_of_iff (a.txid = b.txid ∧ a.vout = b.vout ∧ a.value = b.value) (by
    cases a
    cases b
    simp)

/-- What a build reads from outside the escrow row. -/
structure Deployment where
  policy : CostPolicy
  toOutputScript : ToOutputScript
  /-- The checks on the keys, the script and the arbiter's commitment. -/
  scriptChecks : Except SpendError Unit
  utxos : Except SpendError (List ExplorerUtxo)
  /-- `halfHourFee ?? fastestFee`. -/
  recommendedFee : Except SpendError (Option ℚ)
  /-- The arbiter's signature on a disputed spend. -/
  arbiterSigns : Except SpendError Unit

/-- What a build reads of the escrow row and its trade. -/
structure SpendInput extends MultisigEscrow where
  txLockId : Option String
  txLockVout : Option ℕ
  buyerId : Option String
  sellerId : Option String
  disputed : Bool
  deriving DecidableEq, Repr

/-- An output of a spend. -/
structure SpendOutput where
  address : Option String
  value : ℤ
  deriving DecidableEq, Repr

/-- The value of some outputs together. -/
def spendTotal (outputs : List SpendOutput) : ℤ :=
  (outputs.map SpendOutput.value).sum

/-! ## The shared builder -/

/-- A check, with the error of its failure. -/
def ensure (ok : Bool) (e : SpendError) : Except SpendError Unit :=
  if ok then .ok () else .error e

@[simp] theorem ensure_eq_ok_iff (ok : Bool) (e : SpendError) (u : Unit) :
    ensure ok e = .ok u ↔ ok = true := by
  cases ok <;> simp [ensure]

theorem bind_eq_ok_iff {α β : Type} (x : Except SpendError α) (f : α → Except SpendError β)
    (b : β) : x >>= f = .ok b ↔ ∃ a, x = .ok a ∧ f a = .ok b := by
  cases x <;> simp [bind, Except.bind]

theorem pure_eq_ok_iff {α : Type} (a b : α) :
    (pure a : Except SpendError α) = .ok b ↔ a = b := by
  simp [pure, Except.pure]

/-- The output the escrow was funded with. Rows without an output index are older. -/
def findFunding (escrow : SpendInput) (utxos : List ExplorerUtxo) :
    Except SpendError ExplorerUtxo :=
  match escrow.txLockId.filter (· ≠ "") with
  | none => .error .noFundingTxid
  | some txid =>
    match escrow.txLockVout with
    | some vout =>
      match utxos.find? fun u => u.txid = txid ∧ u.vout = vout with
      | none => .error (.fundingNotFound txid (some vout))
      | some utxo => .ok utxo
    | none =>
      match utxos.find? fun u => u.txid = txid with
      | none => .error (.fundingNotFound txid none)
      | some utxo => .ok utxo

/-- `fetchFeeRateSatsPerVByte`: the explorer's rate, refused when it is not positive. -/
def fetchFeeRateSatsPerVByte (env : Deployment) : Except SpendError ℚ :=
  match env.recommendedFee with
  | .error e => .error e
  | .ok none => .error (.explorer "no usable rate")
  | .ok (some rate) => if rate ≤ 0 then .error (.explorer "no usable rate") else .ok rate

/-- `estimateFeeSats`. -/
def estimateFeeSats (feeRateSatsPerVByte : ℚ) (outputCount : ℕ) : ℤ :=
  ⌈toDouble (feeRateSatsPerVByte * estimatedVBytesForOutputCount outputCount)⌉

/-- `validateOutputs`, in order. -/
def validateOutputs (toOutputScript : ToOutputScript) : List SpendOutput → Except SpendError Unit
  | [] => .ok ()
  | o :: rest => do
    validateOutput toOutputScript o.address o.value
    validateOutputs toOutputScript rest

/-- A spend before its fee is divided. -/
structure UnsignedSpend where
  utxo : ExplorerUtxo
  outputs : List SpendOutput
  feeSats : ℤ
  deriving DecidableEq, Repr

/-- `buildUnsignedSpend`: the checks, the funding, the miner fee and the outputs. -/
def buildUnsignedSpend (env : Deployment) (escrow : SpendInput) (outputCount : ℕ)
    (computeOutputs : ℤ → List SpendOutput) : Except SpendError UnsignedSpend := do
  env.scriptChecks
  let utxos ← env.utxos
  let utxo ← findFunding escrow utxos
  let feeRateSatsPerVByte ← fetchFeeRateSatsPerVByte env
  let feeSats := estimateFeeSats feeRateSatsPerVByte outputCount
  let feeCeiling := maxExecutionCostSats env.policy outputCount utxo.value
  ensure (feeSats ≤ feeCeiling) (.feeAboveCeiling feeSats feeCeiling outputCount)
  let spendableValue := utxo.value - feeSats
  ensure (0 < spendableValue) (.tooSmall utxo.value feeSats)
  let outputs := computeOutputs spendableValue
  validateOutputs env.toOutputScript outputs
  pure ⟨utxo, outputs, feeSats⟩

/-! ## Release, refund and split -/

/-- The protocol's fee of a spend. -/
structure FeeCollectionResult where
  feeSats : ℤ
  waived : Bool
  deriving DecidableEq, Repr

/-- A spend that was built. -/
structure BuiltSpend where
  utxo : ExplorerUtxo
  outputs : List SpendOutput
  requiredSigners : List String
  feeCollection : Option FeeCollectionResult
  minerFeeSats : ℤ
  deriving DecidableEq, Repr

/-- A party that has to sign. -/
def signer (party : Option String) : Except SpendError String :=
  match party.filter (· ≠ "") with
  | none => .error .missingParty
  | some id => .ok id

/-- On a disputed escrow the arbiter signs at once, and the buyer only after. -/
def releaseSigners (env : Deployment) (escrow : SpendInput) : Except SpendError (List String) :=
  if escrow.disputed then do
    env.arbiterSigns
    let buyer ← signer escrow.buyerId
    pure [buyer]
  else do
    let buyer ← signer escrow.buyerId
    let seller ← signer escrow.sellerId
    pure [buyer, seller]

/-- Who signs a refund besides the arbiter. -/
def refundSigners (env : Deployment) (escrow : SpendInput) : Except SpendError (List String) :=
  if escrow.disputed then do
    env.arbiterSigns
    let seller ← signer escrow.sellerId
    pure [seller]
  else do
    let buyer ← signer escrow.buyerId
    let seller ← signer escrow.sellerId
    pure [seller, buyer]

/-- `buildUnsignedRelease`. -/
def buildUnsignedRelease (env : Deployment) (escrow : SpendInput) (toAddress : String) :
    Except SpendError BuiltSpend := do
  let policyAware := escrow.isPolicyAware
  let fmax := escrow.maxFeeSats
  let outputCount := if policyAware && decide (0 < fmax) then 2 else 1
  let spend ← buildUnsignedSpend env escrow outputCount fun spendableValue =>
    if !policyAware || decide (fmax = 0) then [⟨some toAddress, spendableValue⟩]
    else [⟨some toAddress, spendableValue - fmax⟩, ⟨escrow.snapshotFeeCollectionAddress, fmax⟩]
  let feeCollection := if policyAware then some ⟨fmax, fmax = 0⟩ else none
  let requiredSigners ← releaseSigners env escrow
  pure ⟨spend.utxo, spend.outputs, requiredSigners, feeCollection, numberOf spend.feeSats⟩

/-- `buildUnsignedRefund`. -/
def buildUnsignedRefund (env : Deployment) (escrow : SpendInput)
    (authorizedDestination : Option String) : Except SpendError BuiltSpend := do
  ensure (authorizedDestination.any (· ≠ "")) .noDestination
  let spend ← buildUnsignedSpend env escrow 1 fun spendableValue =>
    [⟨authorizedDestination, spendableValue⟩]
  let requiredSigners ← refundSigners env escrow
  pure ⟨spend.utxo, spend.outputs, requiredSigners, none, numberOf spend.feeSats⟩

/-- The decision on the fee of a split ; without a reserve there is nothing to decide. -/
def splitFeeDecision (toOutputScript : ToOutputScript) (escrow : MultisigEscrow) (buyerBps : ℤ) :
    Except SpendError FeeDecision :=
  if escrow.isPolicyAware && decide (0 < escrow.maxFeeSats) then
    decideFeeCollection toOutputScript escrow (escrow.sellerBasisBtc buyerBps)
  else .ok ⟨0, true, none⟩

/-- `buildUnsignedSplit`. -/
def buildUnsignedSplit (env : Deployment) (escrow : SpendInput)
    (buyerAddress sellerAddress : String) (buyerBps : ℤ) : Except SpendError BuiltSpend := do
  let policyAware := escrow.isPolicyAware
  let fmax := escrow.maxFeeSats
  let feeDecision ← splitFeeDecision env.toOutputScript escrow.toMultisigEscrow buyerBps
  let collectedFee := if feeDecision.waived then 0 else feeDecision.feeSats
  let outputCount :=
    if policyAware && decide (0 < fmax) then (if feeDecision.waived then 2 else 3) else 2
  let spend ← buildUnsignedSpend env escrow outputCount fun spendableValue =>
    let buyerPool := if policyAware then spendableValue - fmax else spendableValue
    let buyerValue := (buyerPool * buyerBps).tdiv 10000
    let sellerBase := buyerPool - buyerValue
    if !policyAware || decide (fmax = 0) then
      [⟨some buyerAddress, buyerValue⟩, ⟨some sellerAddress, sellerBase⟩]
    else
      let sellerFinal := sellerBase + fmax - collectedFee
      [⟨some buyerAddress, buyerValue⟩, ⟨some sellerAddress, sellerFinal⟩] ++
        if feeDecision.waived then [] else [⟨feeDecision.collectionAddress, collectedFee⟩]
  let feeCollection := if policyAware then some ⟨collectedFee, feeDecision.waived⟩ else none
  env.arbiterSigns
  let buyer ← signer escrow.buyerId
  pure ⟨spend.utxo, spend.outputs, [buyer], feeCollection, numberOf spend.feeSats⟩

/-- The three ways to settle. -/
inductive SettlementRequest where
  | release (toAddress : String)
  | refund (authorizedDestination : Option String)
  | split (buyerAddress sellerAddress : String) (buyerBps : ℤ)
  deriving DecidableEq, Repr

/-- The spend of a settlement request. -/
def build (env : Deployment) (escrow : SpendInput) :
    SettlementRequest → Except SpendError BuiltSpend
  | .release toAddress => buildUnsignedRelease env escrow toAddress
  | .refund authorizedDestination => buildUnsignedRefund env escrow authorizedDestination
  | .split buyerAddress sellerAddress buyerBps =>
    buildUnsignedSplit env escrow buyerAddress sellerAddress buyerBps

/-! ## What a built spend has passed -/

/-- The outputs are valid when each of them clears dust. -/
theorem validateOutputs_ok_iff (toOutputScript : ToOutputScript) :
    ∀ outputs : List SpendOutput, validateOutputs toOutputScript outputs = .ok () ↔
      ∀ o ∈ outputs, ClearsDust toOutputScript o.address o.value
  | [] => by simp [validateOutputs]
  | o :: rest => by
    rw [validateOutputs, bind_eq_ok_iff, List.forall_mem_cons, ← validateOutput_ok_iff,
      ← validateOutputs_ok_iff toOutputScript rest]
    exact ⟨fun ⟨(), h⟩ => h, fun h => ⟨(), h⟩⟩

/-- The facts every spend is built on. -/
structure Spends (env : Deployment) (outputCount : ℕ) (computeOutputs : ℤ → List SpendOutput)
    (spend : UnsignedSpend) : Prop where
  outputs : spend.outputs = computeOutputs (spend.utxo.value - spend.feeSats)
  fee_nonneg : 0 ≤ spend.feeSats
  fee_le : spend.feeSats ≤ maxExecutionCostSats env.policy outputCount spend.utxo.value
  fee_lt : spend.feeSats < spend.utxo.value
  dust : ∀ o ∈ spend.outputs, ClearsDust env.toOutputScript o.address o.value

/-- The rate that is used is positive. -/
theorem fetchFeeRate_pos {env : Deployment} {rate : ℚ}
    (h : fetchFeeRateSatsPerVByte env = .ok rate) : 0 < rate := by
  unfold fetchFeeRateSatsPerVByte at h
  split at h
  · cases h
  · cases h
  · split_ifs at h with hle
    cases h
    exact not_le.mp hle

theorem estimateFeeSats_nonneg {rate : ℚ} (h : 0 < rate) (outputCount : ℕ) :
    0 ≤ estimateFeeSats rate outputCount := by
  have := toDouble_nonneg
    (mul_nonneg h.le (Nat.cast_nonneg (estimatedVBytesForOutputCount outputCount)))
  exact Int.ceil_nonneg this

/-- What a spend that was built consists of. -/
theorem buildUnsignedSpend_ok {env : Deployment} {escrow : SpendInput} {outputCount : ℕ}
    {computeOutputs : ℤ → List SpendOutput} {spend : UnsignedSpend}
    (h : buildUnsignedSpend env escrow outputCount computeOutputs = .ok spend) :
    Spends env outputCount computeOutputs spend := by
  simp only [buildUnsignedSpend, bind_eq_ok_iff, ensure_eq_ok_iff, decide_eq_true_eq,
    pure_eq_ok_iff] at h
  obtain ⟨-, -, utxos, -, utxo, -, rate, hrate, -, hceiling, -, hpos, ⟨⟩, hvalid, rfl⟩ := h
  exact ⟨rfl, estimateFeeSats_nonneg (fetchFeeRate_pos hrate) outputCount, hceiling,
    by simpa using hpos, (validateOutputs_ok_iff _ _).mp hvalid⟩

/-- The fee reported is the fee paid : it is below `2 ^ 53`. -/
theorem Spends.numberOf_fee {env : Deployment} {outputCount : ℕ}
    {computeOutputs : ℤ → List SpendOutput} {spend : UnsignedSpend}
    (h : Spends env outputCount computeOutputs spend) :
    numberOf spend.feeSats = spend.feeSats := by
  obtain ⟨n, hn⟩ := Int.eq_ofNat_of_zero_le h.fee_nonneg
  have hlt := h.fee_lt
  have hle := spend.utxo.value_le
  rw [hn]
  refine numberOf_natCast ?_
  rw [maxMoney] at hle
  omega

theorem Spends.numberOf_fee_nonneg {env : Deployment} {outputCount : ℕ}
    {computeOutputs : ℤ → List SpendOutput} {spend : UnsignedSpend}
    (h : Spends env outputCount computeOutputs spend) : 0 ≤ numberOf spend.feeSats := by
  rw [h.numberOf_fee]
  exact h.fee_nonneg

/-! ## Conservation -/

/-- No satoshi is lost or made, the miner fee is bounded, and no output is dust. -/
structure Conserves (env : Deployment) (r : BuiltSpend) : Prop where
  sum : spendTotal r.outputs + r.minerFeeSats = r.utxo.value
  fee_nonneg : 0 ≤ r.minerFeeSats
  fee : r.minerFeeSats ≤ maxExecutionCostSats env.policy r.outputs.length r.utxo.value
  dust : ∀ o ∈ r.outputs, ClearsDust env.toOutputScript o.address o.value

/-- The outputs of a split after the buyer's and the seller's : none, or the fee on the
seller's share, rounded down, which is at most the reserve. -/
def SplitFee (escrow : SpendInput) (buyerBps : ℤ) (outputs : List SpendOutput) : Prop :=
  outputs = [] ∨ ∃ address rate, escrow.snapshotFeeCollectionAddress = some address ∧
    escrow.policyRate = some rate ∧
    outputs = [⟨some address, escrow.sellerBasisSats buyerBps * rate / 10 ^ 8⟩] ∧
    escrow.sellerBasisSats buyerBps * rate / 10 ^ 8 ≤ escrow.maxFeeSats

/-- The outputs a settlement is to have. -/
def Shares (escrow : SpendInput) (r : BuiltSpend) : SettlementRequest → Prop
  | .release toAddress =>
    ∃ value, r.outputs = ⟨some toAddress, value⟩ ::
      if 0 < escrow.maxFeeSats then [⟨escrow.snapshotFeeCollectionAddress, escrow.maxFeeSats⟩]
      else []
  | .refund authorizedDestination => ∃ value, r.outputs = [⟨authorizedDestination, value⟩]
  | .split buyerAddress sellerAddress buyerBps =>
    ∃ sellerValue fee, SplitFee escrow buyerBps fee ∧ r.outputs =
      ⟨some buyerAddress,
        (r.utxo.value - r.minerFeeSats - escrow.maxFeeSats) * buyerBps / 10000⟩ ::
      ⟨some sellerAddress, sellerValue⟩ :: fee

/-- The fee a split collects, if it collects one, does not carry. -/
def FeeFloors (env : Deployment) (escrow : SpendInput) : SettlementRequest → Prop
  | .split _ _ buyerBps => ∀ rate decision, escrow.policyRate = some rate →
      splitFeeDecision env.toOutputScript escrow.toMultisigEscrow buyerBps = .ok decision →
      decision.waived = false → ¬Carries ((escrow.sellerBasisSats buyerBps).toNat * rate)
  | _ => True

section Conservation

variable {env : Deployment} {escrow : SpendInput} {r : BuiltSpend}

theorem computeProtocolFee_nonneg {n rate : ℕ} :
    0 ≤ toUnits (computeProtocolFee (ofUnits n) (ofUnits rate)) := by
  rw [computeProtocolFee, product_units]
  have h := toUnits_mono (show ofUnits 0 ≤ ofUnits (productUnits n rate) from
    div_le_div_of_nonneg_right (by exact_mod_cast Nat.zero_le _) (by positivity))
  rwa [toUnits_ofUnits (by norm_num)] at h

theorem MultisigEscrow.maxFeeSats_nonneg (escrow : MultisigEscrow) : 0 ≤ escrow.maxFeeSats := by
  unfold maxFeeSats
  split
  · exact le_rfl
  · split_ifs
    · exact le_rfl
    · exact computeProtocolFee_nonneg

theorem MultisigEscrow.maxFeeSats_eq_zero {escrow : MultisigEscrow}
    (h : escrow.isPolicyAware = false) : escrow.maxFeeSats = 0 := by
  have : escrow.policyRate = none := by simpa [isPolicyAware] using h
  rw [maxFeeSats, this]

theorem isPolicyAware_of_reserve {escrow : MultisigEscrow} (h : 0 < escrow.maxFeeSats) :
    escrow.isPolicyAware = true := by
  by_contra hnot
  rw [MultisigEscrow.maxFeeSats_eq_zero (by simpa using hnot)] at h
  exact lt_irrefl _ h

/-- A reserve is the fee on the whole amount at the frozen rate. -/
theorem MultisigEscrow.maxFeeSats_eq {escrow : MultisigEscrow} {rate : ℕ}
    (hrate : escrow.policyRate = some rate) (h : 0 < escrow.maxFeeSats) :
    escrow.maxFeeSats = escrow.sellerFeeSats rate 0 := by
  rw [sellerFeeSats_zero]
  unfold maxFeeSats at h ⊢
  rw [hrate] at h ⊢
  simp only at h ⊢
  split_ifs at h ⊢
  · simp at h
  · rfl

/-- A release conserves the value and shares it as it should. -/
theorem release_conserves {toAddress : String}
    (h : buildUnsignedRelease env escrow toAddress = .ok r) :
    Conserves env r ∧ Shares escrow r (.release toAddress) := by
  simp only [buildUnsignedRelease, bind_eq_ok_iff, pure_eq_ok_iff] at h
  obtain ⟨spend, hspend, signers, -, rfl⟩ := h
  have hs := buildUnsignedSpend_ok hspend
  have hout := hs.outputs
  have hfee := hs.fee_le
  rcases escrow.maxFeeSats_nonneg.eq_or_lt with hzero | hpos
  · simp only [← hzero, lt_irrefl, decide_false, Bool.and_false, Bool.false_eq_true, if_false,
      decide_true, Bool.or_true, if_true] at hout hfee
    refine ⟨⟨?_, hs.numberOf_fee_nonneg, ?_, hs.dust⟩, _, by simpa [← hzero] using hout⟩
    · simp [hout, spendTotal, hs.numberOf_fee]
    · simpa [hout, hs.numberOf_fee] using hfee
  · have haware := isPolicyAware_of_reserve hpos
    simp only [haware, hpos, hpos.ne', decide_true, Bool.and_self, if_true, Bool.not_true,
      decide_false, Bool.or_self, Bool.false_eq_true, if_false] at hout hfee
    refine ⟨⟨?_, hs.numberOf_fee_nonneg, ?_, hs.dust⟩, _, by simpa [hpos] using hout⟩
    · simp [hout, spendTotal, hs.numberOf_fee]
    · simpa [hout, hs.numberOf_fee] using hfee

/-- A refund conserves the value and shares it as it should. -/
theorem refund_conserves {authorizedDestination : Option String}
    (h : buildUnsignedRefund env escrow authorizedDestination = .ok r) :
    Conserves env r ∧ Shares escrow r (.refund authorizedDestination) := by
  simp only [buildUnsignedRefund, bind_eq_ok_iff, pure_eq_ok_iff] at h
  obtain ⟨-, -, spend, hspend, signers, -, rfl⟩ := h
  have hs := buildUnsignedSpend_ok hspend
  have hout := hs.outputs
  refine ⟨⟨?_, hs.numberOf_fee_nonneg, ?_, hs.dust⟩, _, hout⟩
  · simp [hout, spendTotal, hs.numberOf_fee]
  · simpa [hout, hs.numberOf_fee] using hs.fee_le

/-- A share that comes out positive is rounded down. -/
theorem tdiv_eq_of_pos {x : ℤ} (h : 0 < x.tdiv 10000) : 0 < x ∧ x.tdiv 10000 = x / 10000 := by
  have hx : 0 < x := by
    by_contra hle
    have := Int.tdiv_le_tdiv (c := 10000) (by decide) (not_lt.mp hle)
    simp at this
    omega
  exact ⟨hx, Int.tdiv_eq_ediv_of_nonneg hx.le⟩

/-- The outputs of a split, whatever was decided on the fee. -/
def splitOutputs (buyerAddress sellerAddress : String) (buyerBps pool reserve : ℤ)
    (decision : FeeDecision) : List SpendOutput :=
  let buyerValue := (pool * buyerBps).tdiv 10000
  let collectedFee := if decision.waived then 0 else decision.feeSats
  [⟨some buyerAddress, buyerValue⟩,
    ⟨some sellerAddress, pool - buyerValue + reserve - collectedFee⟩] ++
    if decision.waived then [] else [⟨decision.collectionAddress, collectedFee⟩]

/-- Without a reserve the fee is waived. -/
theorem splitFeeDecision_waived {toOutputScript : ToOutputScript} {escrow : MultisigEscrow}
    {buyerBps : ℤ} {decision : FeeDecision}
    (h : splitFeeDecision toOutputScript escrow buyerBps = .ok decision)
    (hzero : escrow.maxFeeSats = 0) : decision.waived = true := by
  simp only [splitFeeDecision, hzero, lt_irrefl, decide_false, Bool.and_false, Bool.false_eq_true,
    if_false, Except.ok.injEq] at h
  rw [← h]

/-- A split conserves the value. -/
theorem split_conserves {buyerAddress sellerAddress : String} {buyerBps : ℤ}
    (h : buildUnsignedSplit env escrow buyerAddress sellerAddress buyerBps = .ok r) :
    Conserves env r ∧ ∃ decision,
      splitFeeDecision env.toOutputScript escrow.toMultisigEscrow buyerBps = .ok decision ∧
      r.outputs = splitOutputs buyerAddress sellerAddress buyerBps
        (r.utxo.value - r.minerFeeSats - escrow.maxFeeSats) escrow.maxFeeSats decision := by
  simp only [buildUnsignedSplit, bind_eq_ok_iff, pure_eq_ok_iff] at h
  obtain ⟨decision, hdecision, spend, hspend, -, -, buyer, -, rfl⟩ := h
  have hs := buildUnsignedSpend_ok hspend
  have hfee := hs.fee_le
  have hout : spend.outputs = splitOutputs buyerAddress sellerAddress buyerBps
      (spend.utxo.value - spend.feeSats - escrow.maxFeeSats) escrow.maxFeeSats decision := by
    rw [hs.outputs]
    rcases escrow.maxFeeSats_nonneg.eq_or_lt with hzero | hpos
    · simp [← hzero, splitOutputs, splitFeeDecision_waived hdecision hzero.symm]
    · simp [isPolicyAware_of_reserve hpos, hpos.ne', splitOutputs]
  have hcount : spend.outputs.length = if escrow.isPolicyAware && decide (0 < escrow.maxFeeSats)
      then (if decision.waived then 2 else 3) else 2 := by
    rw [hout]
    rcases escrow.maxFeeSats_nonneg.eq_or_lt with hzero | hpos
    · simp [← hzero, splitOutputs, splitFeeDecision_waived hdecision hzero.symm]
    · cases hw : decision.waived <;> simp [isPolicyAware_of_reserve hpos, hpos, splitOutputs, hw]
  refine ⟨⟨?_, hs.numberOf_fee_nonneg, ?_, hs.dust⟩, decision, hdecision,
    by simpa [hs.numberOf_fee] using hout⟩
  · simp only [hout, hs.numberOf_fee, spendTotal, splitOutputs]
    cases decision.waived <;> simp <;> ring
  · simpa only [hcount, hs.numberOf_fee] using hfee

/-- What a split that collects a fee has decided. -/
theorem splitFeeDecision_collected {toOutputScript : ToOutputScript} {escrow : MultisigEscrow}
    {buyerBps : ℤ} {decision : FeeDecision}
    (h : splitFeeDecision toOutputScript escrow buyerBps = .ok decision)
    (hwaived : decision.waived = false) :
    ∃ rate address, escrow.policyRate = some rate ∧ 0 < escrow.maxFeeSats ∧
      escrow.snapshotFeeCollectionAddress = some address ∧
      decision = ⟨escrow.sellerFeeSats rate buyerBps, false, some address⟩ ∧
      0 < escrow.sellerFeeSats rate buyerBps := by
  have hpos : 0 < escrow.maxFeeSats := by
    rcases escrow.maxFeeSats_nonneg.eq_or_lt with hzero | hpos
    · rw [splitFeeDecision_waived h hzero.symm] at hwaived
      cases hwaived
    · exact hpos
  have haware := isPolicyAware_of_reserve hpos
  obtain ⟨rate, hrate⟩ := Option.isSome_iff_exists.mp haware
  simp only [splitFeeDecision, haware, hpos, decide_true, Bool.and_self, if_true,
    decideFeeCollection, hrate] at h
  split_ifs at h with hfee
  · cases h
    cases hwaived
  · split at h
    · cases h
    case h_2 address haddress =>
      split at h
      · cases h
      · split at h
        · cases h
        · split_ifs at h with hdust
          · cases h
            cases hwaived
          · cases h
            exact ⟨rate, address, hrate, hpos, (Option.filter_eq_some_iff.mp haddress).1, rfl,
              not_le.mp hfee⟩

/-- A split that collects a fee gives both parties something, so the share is between
nothing and everything, and the fee is small. -/
theorem collected_bounds {buyerAddress sellerAddress : String} {buyerBps : ℤ} {rate : ℕ}
    {address : String} (hc : Conserves env r) (hpos : 0 < escrow.maxFeeSats)
    (hrate : escrow.policyRate = some rate) (hfee : 0 < escrow.sellerFeeSats rate buyerBps)
    (hout : r.outputs = splitOutputs buyerAddress sellerAddress buyerBps
        (r.utxo.value - r.minerFeeSats - escrow.maxFeeSats) escrow.maxFeeSats
        ⟨escrow.sellerFeeSats rate buyerBps, false, some address⟩) :
    0 ≤ buyerBps ∧ buyerBps ≤ 10000 ∧ escrow.sellerFeeSats rate buyerBps < 2 ^ 53 := by
  have hdust := hc.dust
  have hsum := hc.sum
  simp only [hout, splitOutputs, Bool.false_eq_true, if_false, List.cons_append, List.nil_append,
    List.forall_mem_cons] at hdust hsum
  have hbuyer := hdust.1.pos
  have hseller := hdust.2.1.pos
  simp only [spendTotal, List.map_cons, List.map_nil, List.sum_cons, List.sum_nil] at hsum
  refine ⟨?_, ?_, ?_⟩
  · by_contra hneg
    have hmax := escrow.sellerFeeSats_anti rate (not_le.mp hneg).le
    rw [← MultisigEscrow.maxFeeSats_eq hrate hpos] at hmax
    have hpool := neg_of_mul_pos_left (tdiv_eq_of_pos hbuyer).1 (not_le.mp hneg).le
    omega
  · by_contra hgt
    have hfull := escrow.sellerFeeSats_anti rate (not_le.mp hgt).le
    rw [escrow.sellerFeeSats_full] at hfull
    omega
  · have hle := r.utxo.value_le
    have hminer := hc.fee_nonneg
    rw [maxMoney] at hle
    omega

/-- A split shares the value as it should when its fee is the floor. -/
theorem split_conserves_iff {buyerAddress sellerAddress : String} {buyerBps : ℤ}
    (h : buildUnsignedSplit env escrow buyerAddress sellerAddress buyerBps = .ok r) :
    (Conserves env r ∧ Shares escrow r (.split buyerAddress sellerAddress buyerBps)) ↔
      FeeFloors env escrow (.split buyerAddress sellerAddress buyerBps) := by
  obtain ⟨hc, decision, hdecision, hout⟩ := split_conserves h
  have hbuyer := hc.dust _ (by rw [hout, splitOutputs]; exact List.mem_cons_self)
  have hshare := (tdiv_eq_of_pos hbuyer.pos).2
  simp only [hc, true_and, Shares, FeeFloors, hdecision, Except.ok.injEq]
  cases hwaived : decision.waived with
  | true =>
    rw [splitOutputs, hwaived, hshare] at hout
    refine iff_of_true ⟨_, _, .inl rfl, hout⟩ ?_
    rintro rate _ - rfl hcollected
    rw [hwaived] at hcollected
    cases hcollected
  | false =>
    obtain ⟨rate, address, hrate, hpos, haddress, rfl, hfee⟩ :=
      splitFeeDecision_collected hdecision hwaived
    obtain ⟨hlow, hhigh, hsmall⟩ := collected_bounds hc hpos hrate hfee hout
    have hiff := escrow.sellerFeeSats_eq_iff hlow hhigh hsmall
    have hmax := escrow.sellerFeeSats_anti rate hlow
    rw [← MultisigEscrow.maxFeeSats_eq hrate hpos] at hmax
    rw [splitOutputs, hshare] at hout
    simp only [Bool.false_eq_true, if_false, List.cons_append, List.nil_append] at hout
    constructor
    · rintro ⟨sellerValue, fee, hsplit, heq⟩ rate' _ hrate' rfl -
      rw [hrate, Option.some.injEq] at hrate'
      subst hrate'
      rw [hout] at heq
      simp only [List.cons.injEq, true_and] at heq
      obtain ⟨-, rfl⟩ := heq
      rcases hsplit with hnone | ⟨_, rate', -, hrate', hfloor, -⟩
      · cases hnone
      · rw [hrate, Option.some.injEq] at hrate'
        subst hrate'
        simp only [List.cons.injEq, SpendOutput.mk.injEq, and_true] at hfloor
        exact hiff.mp hfloor.2
    · intro hcarries
      have hfloor := hiff.mpr (hcarries rate _ hrate rfl rfl)
      refine ⟨_, _, .inr ⟨address, rate, haddress, hrate, ?_, hfloor ▸ hmax⟩, hout⟩
      rw [hfloor]

theorem settlement_conserves_iff {request : SettlementRequest}
    (h : build env escrow request = .ok r) :
    (Conserves env r ∧ Shares escrow r request) ↔ FeeFloors env escrow request := by
  cases request with
  | release toAddress => exact iff_of_true (release_conserves h) trivial
  | refund authorizedDestination => exact iff_of_true (refund_conserves h) trivial
  | split buyerAddress sellerAddress buyerBps => exact split_conserves_iff h

end Conservation

/-! ## A split whose fee carries -/

/-- An address of the buyer. -/
def sampleBuyer : String := "bc1q7mrvhs3xxzg9jyesd60nvda26ueukn9nc404xk"

/-- The same address in capitals. -/
def sampleBuyerCapitals : String := "BC1Q7MRVHS3XXZG9JYESD60NVDA26UEUKN9NC404XK"

/-- An address of the seller. -/
def sampleSeller : String := "bc1qupu02kgwtgwm7gx7vq2ep9mtf52m55c62papmj"

/-- An address of the protocol. -/
def sampleSails : String := "bc1q3jyc5pm43z4m8tyl8zyunlkp3a44rmxex2kmcym2wsnjq4x8znhqans03s"

/-- The scripts of three addresses. -/
def sampleToOutputScript : ToOutputScript := fun address =>
  if address = sampleBuyer ∨ address = sampleBuyerCapitals then
    some [0x00, 0x14, 0xf6, 0xc6, 0xcb, 0xc2, 0x26, 0x30, 0x90, 0x59, 0x13,
      0x30, 0x6e, 0x9f, 0x36, 0x37, 0xaa, 0xd7, 0x33, 0xcb, 0x4c, 0xb3]
  else if address = sampleSeller then
    some [0x00, 0x14, 0xe0, 0x78, 0xf5, 0x59, 0x0e, 0x5a, 0x1d, 0xbf, 0x20,
      0xde, 0x60, 0x15, 0x90, 0x97, 0x6b, 0x4d, 0x15, 0xba, 0x53, 0x1a]
  else if address = sampleSails then
    some [0x00, 0x20, 0x8c, 0x89, 0x8a, 0x07, 0x75, 0x88, 0xab, 0xb3, 0xac, 0x9f, 0x38,
      0x89, 0xc9, 0xfe, 0xc1, 0x8f, 0x6b, 0x51, 0xec, 0xd9, 0x32, 0xad, 0xbc, 0x13,
      0x6a, 0x74, 0x27, 0x20, 0x54, 0xc7, 0x14, 0xee]
  else none

/-- A deployment whose explorer knows one output and answers one satoshi per byte. -/
def sampleDeployment (utxo : ExplorerUtxo) : Deployment where
  policy := defaultPolicy
  toOutputScript := sampleToOutputScript
  scriptChecks := .ok ()
  utxos := .ok [utxo]
  recommendedFee := .ok (some 1)
  arbiterSigns := .ok ()

/-- An escrow of `lockedUnits` under a policy of a rate. -/
def sampleEscrow (lockedUnits : ℕ) (h : lockedUnits ≤ maxMoney) (rate : ℕ) : SpendInput where
  lockedUnits := lockedUnits
  lockedUnits_le := h
  feePolicyVersionId := some "v1"
  snapshotProtocolFeeRate := some rate
  snapshotFeeCollectionAddress := some sampleSails
  snapshotFeeCollectionWaivedPreFunding := false
  txLockId := some "funding"
  txLockVout := some 0
  buyerId := some "buyer"
  sellerId := some "seller"
  disputed := true

theorem settlement_conserves_sample :
    let utxo : ExplorerUtxo := ⟨"funding", 0, 10100000, by decide⟩
    let escrow := sampleEscrow 10000000 (by decide) 1000000
    let r : BuiltSpend := ⟨utxo, [⟨some sampleBuyer, 5999850⟩, ⟨some sampleSeller, 4059900⟩,
      ⟨some sampleSails, 40000⟩], ["buyer"], some ⟨40000, false⟩, 250⟩
    let request : SettlementRequest := .split sampleBuyer sampleSeller 6000
    build (sampleDeployment utxo) escrow request = .ok r ∧
      ((Conserves (sampleDeployment utxo) r ∧ Shares escrow r request) ↔
        FeeFloors (sampleDeployment utxo) escrow request) :=
  ⟨by decide +kernel, settlement_conserves_iff (by decide +kernel)⟩

/-- At a rate of 25.000001 percent the seller of half of 80000.49999998 bitcoin owes
10000.06289999 bitcoin and a fraction, and 10000.0629 are taken. -/
theorem carried_fee_exceeds_floor :
    let utxo : ExplorerUtxo := ⟨"funding", 0, 10000062579998, by decide⟩
    let escrow := sampleEscrow 8000049999998 (by decide) 25000001
    ∃ r, build (sampleDeployment utxo) escrow (.split sampleBuyer sampleSeller 5000) = .ok r ∧
      (⟨some sampleSails, 1000006290000⟩ : SpendOutput) ∈ r.outputs ∧
      escrow.sellerBasisSats 5000 * 25000001 / 10 ^ 8 = 1000006289999 ∧
      ¬(Conserves (sampleDeployment utxo) r ∧
        Shares escrow r (.split sampleBuyer sampleSeller 5000)) := by
  intro utxo escrow
  have hbuild : build (sampleDeployment utxo) escrow (.split sampleBuyer sampleSeller 5000) =
      .ok ⟨utxo, [⟨some sampleBuyer, 4000024999874⟩, ⟨some sampleSeller, 5000031289874⟩,
        ⟨some sampleSails, 1000006290000⟩], ["buyer"], some ⟨1000006290000, false⟩, 250⟩ := by
    decide +kernel
  refine ⟨_, hbuild, by decide, by decide +kernel, fun hboth => ?_⟩
  have hfloors := (split_conserves_iff hbuild).mp hboth
  exact hfloors 25000001 ⟨1000006290000, false, some sampleSails⟩ rfl (by decide +kernel) rfl
    (by decide +kernel)

end Sails.Settlement
