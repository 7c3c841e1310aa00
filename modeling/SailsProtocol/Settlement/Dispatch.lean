import SailsProtocol.Settlement.Guard
import SailsProtocol.Settlement.Spend

/-!
# From a ruling to its transaction

A ruling on a MULTISIG escrow is committed as an outcome over the locked amount, with the
registered payout addresses of its beneficiaries (`dispute-outcome.ts`). The settlement
is then built to these addresses, and the guard compares the two
(`applyRulingCoreAuthoritative`).

The builder divides what the funding output holds after the miner fee, the outcome is
over the locked amount, and the guard allows for the cost of the transaction only. So it
matters what the escrow was funded with. `honest_ruling_accepted` : a transaction built
for a ruling passes the guard when nothing is reserved for fees, the output holds at most
the miner fee more than the locked amount, and the addresses are written the way their
scripts are written back.
-/

namespace Sails.Settlement

open Numeric

/-- `bitcoin.address.fromOutputScript` for the configured network, `none` when it throws. -/
abbrev FromOutputScript := Bytes → Option String

/-! ## The outcome of a ruling -/

/-- `buildRulingOutcomeContent`. -/
def buildRulingOutcomeContent (ruling : ArbitrationRuling) (totalUnits : ℕ)
    (asset buyerId sellerId : String) (buyerBps : Option ℤ) :
    Except ContentError ArbitrationOutcomeContent :=
  match ruling with
  | .RELEASE => .ok ⟨ruling, totalUnits, asset, [⟨buyerId, 10000⟩], buyerId⟩
  | .REFUND => .ok ⟨ruling, totalUnits, asset, [⟨sellerId, 10000⟩], sellerId⟩
  | .SPLIT =>
    match buyerBps with
    | none => .error (.splitBps none)
    | some bps =>
      if bps < 1 ∨ bps > 9999 then .error (.splitBps (some bps))
      else .ok ⟨ruling, totalUnits, asset, [⟨buyerId, bps⟩, ⟨sellerId, 10000 - bps⟩], sellerId⟩

/-- The beneficiaries of a ruling. -/
def beneficiariesFor (ruling : ArbitrationRuling) (buyerId sellerId : String) : List String :=
  match ruling with
  | .RELEASE => [buyerId]
  | .REFUND => [sellerId]
  | .SPLIT => [buyerId, sellerId]

/-- The loop over the beneficiaries. The first without an address stops it. -/
def resolveDestinations (payoutAddress : String → Option String) :
    List String → Except ContentError (List BeneficiaryDestination)
  | [] => .ok []
  | beneficiary :: rest =>
    match payoutAddress beneficiary with
    | none => .error (.noPayoutAddress beneficiary)
    | some address =>
      match resolveDestinations payoutAddress rest with
      | .error e => .error e
      | .ok destinations => .ok (⟨beneficiary, address⟩ :: destinations)

/-- The outcome that is committed with a ruling. -/
def rulingOutcome (payoutAddress : String → Option String) (ruling : ArbitrationRuling)
    (totalUnits : ℕ) (asset buyerId sellerId : String) (buyerBps : Option ℤ) :
    Except ContentError Outcome :=
  match buildRulingOutcomeContent ruling totalUnits asset buyerId sellerId buyerBps with
  | .error e => .error e
  | .ok content =>
    match resolveDestinations payoutAddress (beneficiariesFor ruling buyerId sellerId) with
    | .error e => .error e
    | .ok destinations => buildArbitrationOutcome content destinations

/-- `lockedAmount.times(1e8).toFixed(0)`. -/
def MultisigEscrow.totalUnits (escrow : MultisigEscrow) : ℕ :=
  (toFixed (times (ofUnits escrow.lockedUnits) (10 ^ 8))).toNat

/-! ## The transaction of a ruling -/

/-- The destination of a beneficiary. -/
def destinationFor (destinations : List BeneficiaryDestination) (beneficiary : String) :
    Option String :=
  (destinations.find? fun d => d.beneficiary = beneficiary).map
    BeneficiaryDestination.destination

/-- What the ruling asks the provider to build. -/
def dispatchRequest (destinations : List BeneficiaryDestination) (ruling : ArbitrationRuling)
    (buyerId sellerId : String) (buyerBps : Option ℤ) : Option SettlementRequest :=
  let buyerDestination := destinationFor destinations buyerId
  let sellerDestination := destinationFor destinations sellerId
  match ruling with
  | .RELEASE => buyerDestination.map .release
  | .REFUND => some (.refund sellerDestination)
  | .SPLIT =>
    match buyerDestination, sellerDestination, buyerBps with
    | some buyerAddress, some sellerAddress, some bps =>
      some (.split buyerAddress sellerAddress bps)
    | _, _, _ => none

/-- The funding `lockFunds` takes : any output large enough, and with a fee policy only
one of the exact amount. -/
def MultisigEscrow.acceptsFunding (escrow : MultisigEscrow) (value : ℕ) : Bool :=
  if escrow.isPolicyAware then decide ((value : ℤ) = escrow.requiredFundingSats)
  else decide (escrow.expectedSats ≤ value)

/-- What the guard decodes of a built transaction. -/
def BuiltSpend.psbt (r : BuiltSpend) (toOutputScript : ToOutputScript)
    (fromOutputScript : FromOutputScript) : Psbt where
  witnessUtxo := some r.utxo.value
  txOutputs := r.outputs.map fun o =>
    ⟨(o.address.bind toOutputScript).bind fromOutputScript, o.value.toNat⟩

/-- A ruling with its committed outcome and the transaction built for it, of an escrow
whose funding was accepted. -/
structure HonestlyBuilt (env : Deployment) (payoutAddress : String → Option String)
    (escrow : SpendInput) (ruling : ArbitrationRuling) (asset buyerId sellerId : String)
    (buyerBps : Option ℤ) (built : Outcome) (r : BuiltSpend) : Prop where
  outcome : rulingOutcome payoutAddress ruling escrow.totalUnits asset buyerId sellerId
    buyerBps = .ok built
  transaction : ∃ request, dispatchRequest built.destinations ruling buyerId sellerId buyerBps =
    some request ∧ build env escrow request = .ok r
  funded : escrow.acceptsFunding r.utxo.value = true

/-! ## Amounts -/

theorem MultisigEscrow.totalUnits_eq (escrow : MultisigEscrow) :
    escrow.totalUnits = escrow.lockedUnits := by
  rw [totalUnits, times_ofUnits_pow (escrow.lockedUnits_lt.trans (by norm_num)), toFixed_natCast,
    Int.toNat_natCast]

/-- No accepted funding is below the locked amount. -/
theorem MultisigEscrow.lockedUnits_le_of_acceptsFunding {escrow : MultisigEscrow} {value : ℕ}
    (h : escrow.acceptsFunding value = true) : escrow.lockedUnits ≤ value := by
  unfold acceptsFunding at h
  split_ifs at h with haware
  · have hvalue : (value : ℤ) = escrow.requiredFundingSats := by simpa using h
    have hmono : numberOf escrow.lockedUnits ≤ escrow.requiredFundingSats := by
      refine numberOf_mono ?_
      rw [escrow.expectedSats_eq]
      have := escrow.maxFeeSats_nonneg
      omega
    rw [numberOf_natCast escrow.lockedUnits_lt] at hmono
    omega
  · rw [escrow.expectedSats_eq] at h
    simpa using h

/-- A fee within the ceiling of an amount is, less a surplus over another amount, within
the ceiling of that. -/
theorem maxExecutionCostSats_surplus (policy : CostPolicy) (outputCount : ℕ)
    {gross surplus fee : ℤ} (hgross : 0 ≤ gross) (hsurplus : 0 ≤ surplus)
    (hlt : fee < gross + surplus)
    (h : fee ≤ maxExecutionCostSats policy outputCount (gross + surplus)) :
    fee - surplus ≤ maxExecutionCostSats policy outputCount gross := by
  have hp : (0 : ℤ) ≤ policy.maxFeeProportionOfGrossBasisPoints := Int.natCast_nonneg _
  have hprop : fee ≤ ((gross + surplus) * policy.maxFeeProportionOfGrossBasisPoints).tdiv 10000 →
      fee - surplus ≤ (gross * policy.maxFeeProportionOfGrossBasisPoints).tdiv 10000 := by
    intro hfee
    rw [Int.tdiv_eq_ediv_of_nonneg (by positivity)] at hfee ⊢
    rw [Int.le_ediv_iff_mul_le (by norm_num)] at hfee ⊢
    rcases le_total (policy.maxFeeProportionOfGrossBasisPoints : ℤ) 10000 with hle | hge
    · nlinarith
    · nlinarith
  simp only [maxExecutionCostSats] at h ⊢
  split_ifs at h ⊢ <;> omega

/-- The outputs of the transaction add up to those that were built. -/
theorem cast_outputTotal_psbt (toOutputScript : ToOutputScript)
    (fromOutputScript : FromOutputScript) :
    ∀ outputs : List SpendOutput, (∀ o ∈ outputs, 0 < o.value) →
      ((outputTotal (outputs.map fun o =>
        ⟨(o.address.bind toOutputScript).bind fromOutputScript, o.value.toNat⟩) : ℕ) : ℤ) =
        spendTotal outputs
  | [], _ => rfl
  | o :: rest, h => by
    have hhead := h o (by simp)
    have htail := cast_outputTotal_psbt toOutputScript fromOutputScript rest
      fun o' ho' => h o' (by simp [ho'])
    simp only [outputTotal, spendTotal, List.map_cons, List.sum_cons, Nat.cast_add] at htail ⊢
    rw [htail]
    omega

/-! ## An honest translation -/

section Honest

variable {env : Deployment} {fromOutputScript : FromOutputScript} {escrow : SpendInput}
  {r : BuiltSpend} {outcome : ArbitrationOutcome}

/-- A transaction whose outputs are the payments of the outcome passes the guard when the
escrow is not funded too high. -/
theorem translates_of_payments (hc : Conserves env r)
    (htotal : outcome.content.totalUnits = escrow.lockedUnits)
    (hfunded : escrow.lockedUnits ≤ r.utxo.value)
    (hvalue : r.utxo.value ≤ escrow.lockedUnits + r.minerFeeSats)
    (hpaid : (r.psbt env.toOutputScript fromOutputScript).txOutputs =
      outcome.payments (r.utxo.value - r.minerFeeSats)) :
    Translates env.policy outcome (r.psbt env.toOutputScript fromOutputScript)
      (some r.minerFeeSats) := by
  have hsum : (outputTotal (r.psbt env.toOutputScript fromOutputScript).txOutputs : ℤ) =
      r.utxo.value - r.minerFeeSats := by
    have hcast := cast_outputTotal_psbt env.toOutputScript fromOutputScript r.outputs
      fun o ho => (hc.dust o ho).pos
    have := hc.sum
    simp only [BuiltSpend.psbt]
    omega
  have hcount : r.outputs.length = outcome.content.allocations.length := by
    have := congrArg List.length hpaid
    rwa [ArbitrationOutcome.length_payments, BuiltSpend.psbt, List.length_map] at this
  have hminer := hc.fee_nonneg
  refine ⟨⟨r.utxo.value, rfl, by omega, ?_⟩, ⟨?_, ?_⟩, ?_, ?_⟩
  · rintro fee ⟨⟩
    omega
  · rw [hsum, htotal]
    omega
  · rw [hsum, htotal]
    have hceiling := hc.fee
    rw [hcount, show (r.utxo.value : ℤ) =
      escrow.lockedUnits + (r.utxo.value - escrow.lockedUnits) by ring] at hceiling
    have hpos : 0 < spendTotal r.outputs := by
      refine List.sum_pos _ (List.forall_mem_map.mpr fun o ho => (hc.dust o ho).pos) ?_
      rw [ne_eq, List.map_eq_nil_iff, ← List.length_eq_zero_iff, hcount, List.length_eq_zero_iff]
      exact outcome.wellFormed.nonempty
    have hlt : r.minerFeeSats < escrow.lockedUnits + (r.utxo.value - escrow.lockedUnits) := by
      have := hc.sum
      omega
    have := maxExecutionCostSats_surplus env.policy outcome.content.allocations.length
      (Int.natCast_nonneg escrow.lockedUnits) (by omega) hlt hceiling
    omega
  · rw [hsum, hpaid]
    exact fun _ h => h
  · rw [hpaid, ArbitrationOutcome.length_payments]

/-- A single output takes what the miner leaves. -/
theorem single_output {o : SpendOutput} (hc : Conserves env r) (hout : r.outputs = [o]) :
    o.value = r.utxo.value - r.minerFeeSats := by
  have hsum := hc.sum
  simp only [hout, spendTotal, List.map_cons, List.map_nil, List.sum_cons, List.sum_nil] at hsum
  omega

/-- An outcome with one beneficiary is paid by one output. -/
theorem payments_single {ruling : ArbitrationRuling} {totalUnits : ℕ}
    {asset beneficiary address : String} (hc : Conserves env r)
    (hcontent : outcome.content =
      ⟨ruling, totalUnits, asset, [⟨beneficiary, 10000⟩], beneficiary⟩)
    (hdest : outcome.destinations = [⟨beneficiary, address⟩])
    (hcanonical : (env.toOutputScript address).bind fromOutputScript = some address)
    {value : ℤ} (hout : r.outputs = [⟨some address, value⟩]) :
    (r.psbt env.toOutputScript fromOutputScript).txOutputs =
      outcome.payments (r.utxo.value - r.minerFeeSats) := by
  have hvalue := single_output hc hout
  simp only at hvalue
  simp [BuiltSpend.psbt, hout, ArbitrationOutcome.payments, ArbitrationOutcomeContent.allotments,
    ArbitrationOutcomeContent.floors, ArbitrationOutcomeContent.others, hcontent,
    ArbitrationOutcome.payment, ArbitrationOutcome.destinationOf, hdest, hcanonical, hvalue]

/-- A split between two parties is paid by the two outputs of a split without a reserve. -/
theorem payments_split {totalUnits : ℕ} {asset buyerId sellerId buyerAddress sellerAddress : String}
    {bps : ℤ} (hne : buyerId ≠ sellerId)
    (hcontent : outcome.content = ⟨.SPLIT, totalUnits, asset,
      [⟨buyerId, bps⟩, ⟨sellerId, 10000 - bps⟩], sellerId⟩)
    (hdest : outcome.destinations = [⟨buyerId, buyerAddress⟩, ⟨sellerId, sellerAddress⟩])
    (hbuyer : (env.toOutputScript buyerAddress).bind fromOutputScript = some buyerAddress)
    (hseller : (env.toOutputScript sellerAddress).bind fromOutputScript = some sellerAddress)
    {decision : FeeDecision} (hwaived : decision.waived = true)
    (hout : r.outputs = splitOutputs buyerAddress sellerAddress bps
      (r.utxo.value - r.minerFeeSats) 0 decision) :
    (r.psbt env.toOutputScript fromOutputScript).txOutputs =
      outcome.payments (r.utxo.value - r.minerFeeSats) := by
  simp [BuiltSpend.psbt, hout, splitOutputs, hwaived, ArbitrationOutcome.payments,
    ArbitrationOutcomeContent.allotments, ArbitrationOutcomeContent.floors,
    ArbitrationOutcomeContent.others, hcontent, ArbitrationOutcome.payment,
    ArbitrationOutcome.destinationOf, hdest, hbuyer, hseller, hne]

/-- The outcome of a ruling that was built. -/
theorem rulingOutcome_ok {payoutAddress : String → Option String} {ruling : ArbitrationRuling}
    {totalUnits : ℕ} {asset buyerId sellerId : String} {buyerBps : Option ℤ} {built : Outcome}
    (h : rulingOutcome payoutAddress ruling totalUnits asset buyerId sellerId buyerBps =
      .ok built) :
    ∃ outcome : ArbitrationOutcome, outcome.toOutcome = built ∧
      buildRulingOutcomeContent ruling totalUnits asset buyerId sellerId buyerBps =
        .ok outcome.content ∧
      resolveDestinations payoutAddress (beneficiariesFor ruling buyerId sellerId) =
        .ok outcome.destinations := by
  unfold rulingOutcome at h
  split at h
  · cases h
  case h_2 content hcontent =>
    split at h
    · cases h
    case h_2 destinations hdest =>
      obtain ⟨outcome, rfl, rfl, rfl⟩ := (buildArbitrationOutcome_ok_iff _ _ _).mp h
      exact ⟨outcome, rfl, hcontent, hdest⟩

/-- The destination of one beneficiary. -/
theorem resolveDestinations_single {payoutAddress : String → Option String}
    {beneficiary : String} {destinations : List BeneficiaryDestination}
    (h : resolveDestinations payoutAddress [beneficiary] = .ok destinations) :
    ∃ address, destinations = [⟨beneficiary, address⟩] := by
  simp only [resolveDestinations] at h
  split at h
  · cases h
  · exact ⟨_, (Except.ok.inj h).symm⟩

/-- The destinations of two beneficiaries. -/
theorem resolveDestinations_pair {payoutAddress : String → Option String}
    {buyerId sellerId : String} {destinations : List BeneficiaryDestination}
    (h : resolveDestinations payoutAddress [buyerId, sellerId] = .ok destinations) :
    ∃ buyerAddress sellerAddress,
      destinations = [⟨buyerId, buyerAddress⟩, ⟨sellerId, sellerAddress⟩] := by
  rw [resolveDestinations] at h
  split at h
  · cases h
  · split at h
    · cases h
    case h_2 rest hrest =>
      obtain ⟨sellerAddress, rfl⟩ := resolveDestinations_single hrest
      exact ⟨_, sellerAddress, (Except.ok.inj h).symm⟩

/-- When the guard accepts the transaction that the provider built. -/
theorem honest_ruling_accepted {payoutAddress : String → Option String}
    {ruling : ArbitrationRuling} {asset buyerId sellerId : String} {buyerBps : Option ℤ}
    {built : Outcome}
    (h : HonestlyBuilt env payoutAddress escrow ruling asset buyerId sellerId buyerBps built r)
    (hcanonical : ∀ d ∈ built.destinations,
      (env.toOutputScript d.destination).bind fromOutputScript = some d.destination)
    (hreserve : escrow.maxFeeSats = 0 ∨ ruling = .REFUND)
    (hvalue : r.utxo.value ≤ escrow.lockedUnits + r.minerFeeSats) :
    Accepts env.policy (.ok (r.psbt env.toOutputScript fromOutputScript)) built
      (some r.minerFeeSats) := by
  obtain ⟨houtcome, ⟨request, hrequest, hbuild⟩, hfunded⟩ := h
  have hlocked := MultisigEscrow.lockedUnits_le_of_acceptsFunding hfunded
  rw [escrow.totalUnits_eq] at houtcome
  obtain ⟨outcome, rfl, hcontent, hdest⟩ := rulingOutcome_ok houtcome
  rw [ArbitrationOutcome.toOutcome_destinations] at hrequest hcanonical
  refine (accepts_iff _ _ _ _).mpr ⟨_, rfl, ?_⟩
  cases ruling with
  | RELEASE =>
    have hzero : escrow.maxFeeSats = 0 := by simpa using hreserve
    obtain ⟨address, hd⟩ := resolveDestinations_single hdest
    have hcontent := (Except.ok.inj hcontent).symm
    simp only [dispatchRequest, hd, destinationFor, List.find?_cons, decide_true,
      Option.map_some, Option.some.injEq] at hrequest
    subst hrequest
    obtain ⟨hc, value, hout⟩ := release_conserves hbuild
    rw [hzero, if_neg (lt_irrefl _)] at hout
    exact translates_of_payments hc (by rw [hcontent]) hlocked hvalue
      (payments_single hc hcontent hd (hcanonical ⟨buyerId, address⟩ (by simp [hd])) hout)
  | REFUND =>
    obtain ⟨address, hd⟩ := resolveDestinations_single hdest
    have hcontent := (Except.ok.inj hcontent).symm
    simp only [dispatchRequest, hd, destinationFor, List.find?_cons, decide_true,
      Option.map_some, Option.some.injEq] at hrequest
    subst hrequest
    obtain ⟨hc, value, hout⟩ := refund_conserves hbuild
    exact translates_of_payments hc (by rw [hcontent]) hlocked hvalue
      (payments_single hc hcontent hd (hcanonical ⟨sellerId, address⟩ (by simp [hd])) hout)
  | SPLIT =>
    have hzero : escrow.maxFeeSats = 0 := by simpa using hreserve
    obtain ⟨buyerAddress, sellerAddress, hd⟩ := resolveDestinations_pair hdest
    simp only [buildRulingOutcomeContent] at hcontent
    split at hcontent
    · cases hcontent
    case h_2 bps =>
      split_ifs at hcontent with hrange
      have hcontent := (Except.ok.inj hcontent).symm
      have hne : buyerId ≠ sellerId := by
        have := outcome.wellFormed.distinct
        simpa [ArbitrationOutcomeContent.beneficiaries, hcontent] using this
      simp only [dispatchRequest, hd, destinationFor, List.find?_cons, decide_true, hne,
        decide_false, Option.map_some, Option.some.injEq] at hrequest
      subst hrequest
      obtain ⟨hc, decision, hdecision, hout⟩ := split_conserves hbuild
      have hwaived := splitFeeDecision_waived hdecision hzero
      rw [hzero, sub_zero] at hout
      exact translates_of_payments hc (by rw [hcontent]) hlocked hvalue
        (payments_split hne hcontent hd (hcanonical ⟨buyerId, buyerAddress⟩ (by simp [hd]))
          (hcanonical ⟨sellerId, sellerAddress⟩ (by simp [hd])) hwaived hout)

end Honest

/-! ## Funding, reserves and capitals -/

/-- The addresses of the sample scripts, in small letters. -/
def sampleFromOutputScript : FromOutputScript := fun script =>
  [sampleBuyer, sampleSeller, sampleSails].find? fun address =>
    sampleToOutputScript address = some script

/-- An escrow of an amount, without a fee policy. -/
def legacyEscrow (lockedUnits : ℕ) (h : lockedUnits ≤ maxMoney) : SpendInput :=
  { sampleEscrow lockedUnits h 0 with
    feePolicyVersionId := none
    snapshotProtocolFeeRate := none
    snapshotFeeCollectionAddress := none }

/-- The payout addresses of the two parties. -/
def samplePayout (buyerAddress : String) (participant : String) : Option String :=
  if participant = "buyer" then some buyerAddress
  else if participant = "seller" then some sampleSeller
  else none

/-- A rejected transaction is not accepted. -/
theorem not_accepts_of_rejected {policy : CostPolicy} {decoded : Except String Psbt}
    {outcome : Outcome} {declaredMinerFeeSats : Option ℤ} (mismatches : List Mismatch)
    (h : validateTranslatedOutputsAgainstOutcome policy decoded outcome declaredMinerFeeSats =
      .ok ⟨false, mismatches⟩) : ¬Accepts policy decoded outcome declaredMinerFeeSats := by
  rintro ⟨r, hr, hok⟩
  rw [h] at hr
  cases hr
  cases hok

/-- The outcome of a release to the buyer. -/
def releaseOutcome (totalUnits : ℕ) (buyerAddress : String) : Outcome :=
  ⟨⟨.RELEASE, totalUnits, "BTC", [⟨"buyer", 10000⟩], "buyer"⟩, some [⟨"buyer", buyerAddress⟩]⟩

/-- The split of the sample is accepted. -/
theorem honest_split_accepted :
    let utxo : ExplorerUtxo := ⟨"funding", 0, 20100, by decide⟩
    let env := sampleDeployment utxo
    let r : BuiltSpend := ⟨utxo, [⟨some sampleBuyer, 13925⟩, ⟨some sampleSeller, 5968⟩],
      ["buyer"], none, 207⟩
    let outcome : Outcome := ⟨⟨.SPLIT, 20000, "BTC", [⟨"buyer", 7000⟩, ⟨"seller", 3000⟩], "seller"⟩,
      some [⟨"buyer", sampleBuyer⟩, ⟨"seller", sampleSeller⟩]⟩
    HonestlyBuilt env (samplePayout sampleBuyer) (legacyEscrow 20000 (by decide)) .SPLIT "BTC"
        "buyer" "seller" (some 7000) outcome r ∧
      Accepts env.policy (.ok (r.psbt env.toOutputScript sampleFromOutputScript)) outcome
        (some r.minerFeeSats) := by
  intro utxo env r outcome
  have h : HonestlyBuilt env (samplePayout sampleBuyer) (legacyEscrow 20000 (by decide)) .SPLIT
      "BTC" "buyer" "seller" (some 7000) outcome r :=
    ⟨by decide +kernel, ⟨.split sampleBuyer sampleSeller 7000, by decide +kernel,
      by decide +kernel⟩, by decide +kernel⟩
  exact ⟨h, honest_ruling_accepted h (by decide) (.inl (by decide)) (by decide)⟩

/-- Three honest releases that the guard refuses : the escrow holds twice its amount, the
fee has an output of its own, the buyer registered an address in capitals. -/
theorem honest_releases_refused :
    (let utxo : ExplorerUtxo := ⟨"funding", 0, 40000, by decide⟩
      let r : BuiltSpend := ⟨utxo, [⟨some sampleBuyer, 39836⟩], ["buyer"], none, 164⟩
      HonestlyBuilt (sampleDeployment utxo) (samplePayout sampleBuyer)
        (legacyEscrow 20000 (by decide)) .RELEASE "BTC" "buyer" "seller" none
        (releaseOutcome 20000 sampleBuyer) r ∧
      ¬Accepts defaultPolicy (.ok (r.psbt sampleToOutputScript sampleFromOutputScript))
        (releaseOutcome 20000 sampleBuyer) (some r.minerFeeSats)) ∧
    (let utxo : ExplorerUtxo := ⟨"funding", 0, 10100000, by decide⟩
      let r : BuiltSpend := ⟨utxo, [⟨some sampleBuyer, 9999793⟩, ⟨some sampleSails, 100000⟩],
        ["buyer"], some ⟨100000, false⟩, 207⟩
      HonestlyBuilt (sampleDeployment utxo) (samplePayout sampleBuyer)
        (sampleEscrow 10000000 (by decide) 1000000) .RELEASE "BTC" "buyer" "seller" none
        (releaseOutcome 10000000 sampleBuyer) r ∧
      ¬Accepts defaultPolicy (.ok (r.psbt sampleToOutputScript sampleFromOutputScript))
        (releaseOutcome 10000000 sampleBuyer) (some r.minerFeeSats)) ∧
    (let utxo : ExplorerUtxo := ⟨"funding", 0, 20000, by decide⟩
      let r : BuiltSpend := ⟨utxo, [⟨some sampleBuyerCapitals, 19836⟩], ["buyer"], none, 164⟩
      HonestlyBuilt (sampleDeployment utxo) (samplePayout sampleBuyerCapitals)
        (legacyEscrow 20000 (by decide)) .RELEASE "BTC" "buyer" "seller" none
        (releaseOutcome 20000 sampleBuyerCapitals) r ∧
      ¬Accepts defaultPolicy (.ok (r.psbt sampleToOutputScript sampleFromOutputScript))
        (releaseOutcome 20000 sampleBuyerCapitals) (some r.minerFeeSats)) := by
  refine ⟨?_, ?_, ?_⟩
  · refine ⟨⟨by decide +kernel, ⟨.release sampleBuyer, by decide +kernel, by decide +kernel⟩,
      by decide +kernel⟩, not_accepts_of_rejected
      [.derivation (.exceedsGross 39836 20000)] (by decide)⟩
  · refine ⟨⟨by decide +kernel, ⟨.release sampleBuyer, by decide +kernel, by decide +kernel⟩,
      by decide +kernel⟩, not_accepts_of_rejected
      [.derivation (.exceedsGross 10099793 10000000)] (by decide)⟩
  · refine ⟨⟨by decide +kernel, ⟨.release sampleBuyerCapitals, by decide +kernel, by decide +kernel⟩,
      by decide +kernel⟩, not_accepts_of_rejected
      [.noOutput "buyer" 19836 sampleBuyerCapitals] (by decide +kernel)⟩

end Sails.Settlement
