import SailsProtocol.Numeric.Doubles
import SailsProtocol.Settlement.Spend
import SailsProtocol.Text.Decimals
import SailsProtocol.Wallet.Verification

/-!
# What the wallet expects of an escrow

`wallet-verification.ts` computes the largest fee, the outputs of a release and the deposit
address of an escrow again, from the frozen rate as a decimal text and from the three keys,
with whole numbers where the server uses a decimal type of twenty digits and doubles
(`fee-reserve-math.ts`, `multisig.provider.ts`).

`computeProtocolFeeSatsExact_text` : on a text without an exponent the wallet's fee is the
exact product, cut off at the satoshi. `derive_eq_getDepositAddress` : the addresses are equal
for the keys in any order. `wallet_agrees_iff` : the two sides agree on an escrow exactly when
its rate is written without an exponent and the server's arithmetic does not carry.
-/

namespace Sails.Wallet

open Numeric Settlement Text

/-! ## Rates -/

/-- White space to `String.prototype.trim`. -/
def isSpace (u : UInt16) : Bool :=
  u.toNat ∈ [0x09, 0x0A, 0x0B, 0x0C, 0x0D, 0x20, 0xA0, 0x1680, 0x2028, 0x2029, 0x202F, 0x205F,
    0x3000, 0xFEFF] || (0x2000 ≤ u.toNat && u.toNat ≤ 0x200A)

/-- `String.prototype.trim`. -/
def trim (s : JsString) : JsString :=
  (s.dropWhile isSpace).reverse.dropWhile isSpace |>.reverse

/-- `/^\d+(\.\d+)?$/`. -/
def isPlainDecimal (s : JsString) : Bool :=
  !(s.takeWhile isDigit).isEmpty &&
    match s.dropWhile isDigit with
    | [] => true
    | u :: frac => u = point && !frac.isEmpty && frac.all isDigit

/-- `parseDecimalRateExact: '…' is not a valid decimal string`. -/
structure InvalidDecimal where
  rateStr : JsString
  deriving DecidableEq, Repr

/-- A rate as a fraction of a power of ten. -/
structure ExactRate where
  numerator : ℤ
  scale : ℕ
  deriving DecidableEq, Repr

/-- The minus sign. -/
def minus : UInt16 := 0x2D

/-- `parseDecimalRateExact`. -/
def parseDecimalRateExact (rateStr : JsString) : Except InvalidDecimal ExactRate :=
  let trimmed := trim rateStr
  let negative := trimmed.head? = some minus
  let unsigned := if negative then trimmed.drop 1 else trimmed
  if isPlainDecimal unsigned then
    let (intPart, fracPart) := splitPoint unsigned
    let numerator : ℤ := natValue (intPart ++ fracPart)
    .ok ⟨if negative then -numerator else numerator, fracPart.length⟩
  else .error ⟨rateStr⟩

/-- The division of whole numbers cuts off towards zero. -/
def computeProtocolFeeSatsExact (amountSats : ℤ) (protocolFeeRateDecimalString : JsString) :
    Except InvalidDecimal ℤ :=
  match parseDecimalRateExact protocolFeeRateDecimalString with
  | .error e => .error e
  | .ok rate => .ok ((amountSats * rate.numerator).tdiv (10 ^ rate.scale))

/-- A value of the rate column as a decimal text, with or without an exponent. The column
holds 24 digits, eight of them after the point. -/
structure RateText where
  intPart : JsString
  fracPart : JsString
  exponent : Option ℤ
  intPart_ne : intPart ≠ []
  digits : ∀ u ∈ intPart ++ fracPart, isDigit u = true
  /-- The value in units of the eighth place. -/
  units : ℕ
  units_lt : units < 10 ^ 24
  value : (natValue (intPart ++ fracPart) : ℚ) * 10 ^ (exponent.getD 0 - fracPart.length) =
    ofUnits units

/-- The sign and the digits of an exponent. -/
def exponentText (exponent : ℤ) : JsString :=
  0x65 :: (if exponent < 0 then minus else 0x2B) :: natText exponent.natAbs

/-- A rate as `Decimal.toString` may write it. -/
def RateText.text (rate : RateText) : JsString :=
  rate.intPart ++ (if rate.fracPart = [] then [] else point :: rate.fracPart) ++
    (rate.exponent.map exponentText).getD []

/-! ## Reading a rate -/

theorem isSpace_of_isDigit {u : UInt16} (h : isDigit u = true) : isSpace u = false := by
  rw [isDigit_iff] at h
  simp only [isSpace, Bool.or_eq_false_iff, decide_eq_false_iff_not, List.mem_cons,
    List.not_mem_nil, or_false, Bool.and_eq_false_iff]
  omega

theorem trim_of_not_space {s : JsString} (h : ∀ u ∈ s, isSpace u = false) : trim s = s := by
  have hkeep : ∀ t : JsString, (∀ u ∈ t, isSpace u = false) → t.dropWhile isSpace = t := by
    intro t ht
    cases t with
    | nil => rfl
    | cons u t => exact List.dropWhile_cons_of_neg (by simp [ht u])
  rw [trim, hkeep s h, hkeep s.reverse (by simpa using h), List.reverse_reverse]

namespace RateText

variable (rate : RateText)

theorem isDigit_intPart {u : UInt16} (h : u ∈ rate.intPart) : isDigit u = true :=
  rate.digits u (List.mem_append_left _ h)

theorem isDigit_fracPart {u : UInt16} (h : u ∈ rate.fracPart) : isDigit u = true :=
  rate.digits u (List.mem_append_right _ h)

/-- No space is in the text of a rate. -/
theorem isSpace_text {u : UInt16} (h : u ∈ rate.text) : isSpace u = false := by
  rcases List.mem_append.mp h with h | h
  · rcases List.mem_append.mp h with h | h
    · exact isSpace_of_isDigit (rate.isDigit_intPart h)
    · split_ifs at h
      · cases h
      · rcases List.mem_cons.mp h with rfl | h
        · rfl
        · exact isSpace_of_isDigit (rate.isDigit_fracPart h)
  · cases hexp : rate.exponent with
    | none => simp [hexp] at h
    | some e =>
      simp only [hexp, Option.map_some, Option.getD_some, exponentText, List.mem_cons] at h
      rcases h with rfl | rfl | h
      · rfl
      · split_ifs <;> rfl
      · exact isSpace_of_isDigit (isDigit_of_mem_natText h)

/-- A text starts with a digit. -/
theorem head_text : rate.text.head? ≠ some minus := by
  obtain ⟨u, t, ht⟩ := List.exists_cons_of_ne_nil rate.intPart_ne
  have hu : isDigit u = true := rate.isDigit_intPart (ht ▸ List.mem_cons_self)
  rw [text, ht]
  simp only [List.cons_append, List.head?_cons, ne_eq, Option.some.injEq]
  rintro rfl
  exact absurd hu (by decide)

/-- The digits before the point are read first. -/
theorem span_text (rest : JsString) (h : ∀ u ∈ rest.head?, isDigit u = false) :
    (rate.intPart ++ rest).takeWhile isDigit = rate.intPart ∧
      (rate.intPart ++ rest).dropWhile isDigit = rest := by
  have hint : ∀ u ∈ rate.intPart, isDigit u = true := fun u hu => rate.isDigit_intPart hu
  rw [List.takeWhile_append_of_pos hint, List.dropWhile_append_of_pos hint]
  cases rest with
  | nil => simp
  | cons u rest =>
    have hu : isDigit u = false := h u rfl
    simp [hu]

/-- A rate without exponent is parsed to its value. -/
theorem parse_text (h : rate.exponent = none) : parseDecimalRateExact rate.text =
    .ok ⟨natValue (rate.intPart ++ rate.fracPart), rate.fracPart.length⟩ := by
  have htrim : trim rate.text = rate.text := trim_of_not_space fun u hu => rate.isSpace_text hu
  have hplain : isPlainDecimal rate.text = true ∧
      splitPoint rate.text = (rate.intPart, rate.fracPart) := by
    have hint : ∀ u ∈ rate.intPart, isDigit u = true := fun u hu => rate.isDigit_intPart hu
    have hfrac : ∀ u ∈ rate.fracPart, isDigit u = true := fun u hu => rate.isDigit_fracPart hu
    rw [text, h]
    simp only [Option.map_none, Option.getD_none, List.append_nil]
    split_ifs with hnil
    · obtain ⟨htake, hdrop⟩ := rate.span_text [] (by simp)
      rw [isPlainDecimal, htake, hdrop, hnil]
      have hpoint : ∀ u ∈ rate.intPart, decide (u ≠ point) = true := fun u hu =>
        decide_eq_true (ne_point_of_isDigit (hint u hu))
      rw [List.append_nil, splitPoint, List.takeWhile_eq_self_iff.mpr hpoint,
        List.dropWhile_eq_nil_iff.mpr hpoint]
      simp [rate.intPart_ne]
    · obtain ⟨htake, hdrop⟩ := rate.span_text (point :: rate.fracPart) (by simp [isDigit, point])
      rw [isPlainDecimal, htake, hdrop, splitPoint_digits hint hfrac]
      simpa [rate.intPart_ne, hnil] using hfrac
  simp only [parseDecimalRateExact, htrim, rate.head_text, if_false, hplain.1, if_true, hplain.2]

/-- A text with an exponent is refused. -/
theorem parse_exponent {e : ℤ} (h : rate.exponent = some e) :
    parseDecimalRateExact rate.text = .error ⟨rate.text⟩ := by
  have htrim : trim rate.text = rate.text := trim_of_not_space fun u hu => rate.isSpace_text hu
  have hplain : isPlainDecimal rate.text = false := by
    rw [text, h, List.append_assoc]
    simp only [Option.map_some, Option.getD_some]
    split_ifs with hnil
    · obtain ⟨htake, hdrop⟩ := rate.span_text ([] ++ exponentText e)
        (by simp [exponentText, isDigit])
      rw [isPlainDecimal, htake, hdrop]
      simp [exponentText, point]
    · obtain ⟨htake, hdrop⟩ := rate.span_text (point :: rate.fracPart ++ exponentText e)
        (by simp [isDigit, point])
      have he : isDigit 0x65 = false := rfl
      rw [isPlainDecimal, htake, hdrop]
      simp [exponentText, he]
  simp only [parseDecimalRateExact, htrim, rate.head_text, if_false, hplain, Bool.false_eq_true]

end RateText

/-- On a text without an exponent the wallet's fee is the exact product, cut off at the
satoshi. -/
theorem computeProtocolFeeSatsExact_text (rate : RateText) (h : rate.exponent = none)
    (amountSats : ℕ) : computeProtocolFeeSatsExact amountSats rate.text =
      .ok (amountSats * rate.units / 10 ^ 8 : ℕ) := by
  have hvalue := rate.value
  rw [h, Option.getD_none, zero_sub, zpow_neg, zpow_natCast, ofUnits] at hvalue
  have hcross : natValue (rate.intPart ++ rate.fracPart) * 10 ^ 8 =
      10 ^ rate.fracPart.length * rate.units := by
    field_simp at hvalue
    exact_mod_cast hvalue
  rw [computeProtocolFeeSatsExact, rate.parse_text h]
  simp only
  congr 1
  rw [Int.tdiv_eq_ediv_of_nonneg (by positivity)]
  norm_cast
  refine (Nat.mul_div_mul_right _ _ (by positivity : 0 < 10 ^ 8)).symm.trans ?_
  rw [mul_assoc, hcross, mul_left_comm, Nat.mul_div_mul_left _ _ (by positivity)]

/-! ## The outputs of a release -/

/-- The arguments of `buildExpectedFeeAwareReleaseOutputs`. -/
structure FeeAwareReleaseParams where
  lockedAmountSats : ℤ
  protocolFeeRate : JsString
  minerFee : ℤ
  buyerAddress : String
  secondOutputAddress : String
  deriving DecidableEq, Repr

/-- The outputs a wallet expects of a release. -/
def buildExpectedFeeAwareReleaseOutputs (params : FeeAwareReleaseParams) :
    Except InvalidDecimal (List ExpectedOutput) :=
  match computeProtocolFeeSatsExact params.lockedAmountSats params.protocolFeeRate with
  | .error e => .error e
  | .ok fmax =>
    let buyerPool := params.lockedAmountSats - params.minerFee
    .ok [⟨params.buyerAddress, buyerPool⟩, ⟨params.secondOutputAddress, fmax⟩]

/-- An expected output as the server writes it. -/
def ExpectedOutput.toSpend (o : ExpectedOutput) : SpendOutput :=
  ⟨some o.address, o.value⟩

/-- The two outputs of a release that pays a fee. -/
theorem release_outputs {env : Deployment} {escrow : SpendInput} {toAddress : String}
    {r : BuiltSpend} (h : buildUnsignedRelease env escrow toAddress = .ok r)
    (hpos : 0 < escrow.maxFeeSats) :
    r.outputs = [⟨some toAddress, r.utxo.value - r.minerFeeSats - escrow.maxFeeSats⟩,
      ⟨escrow.snapshotFeeCollectionAddress, escrow.maxFeeSats⟩] := by
  simp only [buildUnsignedRelease, bind_eq_ok_iff, pure_eq_ok_iff] at h
  obtain ⟨spend, hspend, signers, -, rfl⟩ := h
  have hs := buildUnsignedSpend_ok hspend
  have hout := hs.outputs
  simp only [isPolicyAware_of_reserve hpos, hpos.ne', Bool.not_true, decide_false, Bool.or_self,
    Bool.false_eq_true, if_false] at hout
  simpa only [hs.numberOf_fee] using hout

/-! ## The deposit address -/

section Address

/-- `payments.p2wsh` of `payments.p2ms` : the address of `m` of the keys, or the error. -/
abbrev P2wshAddress := BitcoinNetwork → P2ms → Except String String

variable (address : P2wshAddress)

/-- `deriveExpectedMultisigAddress`. -/
def deriveExpectedMultisigAddress (pubkeysHex : List Hex) (threshold : ℕ) (network : String) :
    Except String String := do
  let btcNetwork ← networkFor network
  let pubkeys := (pubkeysHex.map bufferFromHex).insertionSort fun a b => bufferLe a b = true
  address btcNetwork ⟨threshold, pubkeys⟩

/-- `parsePubkey`. -/
def parsePubkey (hex : Hex) (role tradeId : String) : Except String Bytes :=
  if hex = [] then
    .error ("MULTISIG provider requires a submitted " ++ role ++ " pubkey for trade " ++ tradeId ++
      " — call POST /v1/settlement/escrow/:id/submit-key first (see EscrowParticipantKey)")
  else
    let buf := bufferFromHex hex
    if buf.length ≠ 33 then
      .error ("MULTISIG provider: " ++ role ++ " pubkey for trade " ++ tradeId ++
        " must be a 33-byte compressed secp256k1 key, got " ++ toString buf.length ++ " bytes")
    else .ok buf

/-- What the server says of the deposit address. -/
structure DepositAddress where
  address : String
  arbiterPubkeyHex : Hex
  arbiterId : String
  deriving DecidableEq, Repr

/-- The arbiter's key is derived once, for the script and for the answer. -/
def getDepositAddress (network : BitcoinNetwork) (deriveArbiterKey : String → Bytes)
    (arbiterId tradeId : String) (buyerPubkeyHex sellerPubkeyHex : Hex) :
    Except String DepositAddress := do
  let arbiterPubkey := deriveArbiterKey arbiterId
  let buyerPubkey ← parsePubkey buyerPubkeyHex "buyer" tradeId
  let sellerPubkey ← parsePubkey sellerPubkeyHex "seller" tradeId
  let parties : MultisigParties := ⟨buyerPubkey, sellerPubkey, arbiterPubkey⟩
  let depositAddress ← address network parties.buildScript.witnessScript
  pure ⟨depositAddress, (toHex arbiterPubkey).toList, arbiterId⟩

/-- Bytes in hex are read back. -/
theorem bufferFromHex_toHex (bytes : Bytes) : bufferFromHex (toHex bytes).toList = bytes := by
  rw [toHex, String.toList_ofList]
  induction bytes with
  | nil => rfl
  | cons b bytes ih =>
    have hb := b.toNat_lt
    simp only [List.flatMap_cons, List.cons_append, List.nil_append, bufferFromHex,
      hexDigit_hexChar (d := b.toNat / 16) (by omega),
      hexDigit_hexChar (d := b.toNat % 16) (by omega), ih]
    rw [Nat.div_add_mod, UInt8.ofNat_toNat]

/-- The order of `Buffer.compare` is lexicographic. -/
theorem bufferLe_iff : ∀ {a b : Bytes}, bufferLe a b = true ↔ a ≤ b
  | [], b => by simp [bufferLe]
  | x :: a, [] => by simp [bufferLe]
  | x :: a, y :: b => by
    rw [List.cons_le_cons_iff, ← bufferLe_iff (a := a), bufferLe]
    by_cases h : x = y
    · simp [h]
    · simp [h]

/-- The keys come out of the sort in one order. -/
theorem insertionSort_bufferLe {l m : List Bytes} (h : l.Perm m) :
    l.insertionSort (fun a b => bufferLe a b = true) =
      m.insertionSort fun a b => bufferLe a b = true := by
  have htotal : Std.Total fun a b : Bytes => bufferLe a b = true :=
    ⟨fun a b => by simpa only [bufferLe_iff] using Std.le_total⟩
  have htrans : IsTrans Bytes fun a b => bufferLe a b = true :=
    ⟨fun a b c => by simpa only [bufferLe_iff] using Std.le_trans⟩
  refine List.Perm.eq_of_pairwise (fun a b _ _ => ?_)
    (List.pairwise_insertionSort _ l) (List.pairwise_insertionSort _ m) ?_
  · simpa only [bufferLe_iff] using Std.le_antisymm
  exact (List.perm_insertionSort _ l).trans (h.trans (List.perm_insertionSort _ m).symm)

/-- The wallet's address is the server's, for the keys in any order. -/
theorem derive_eq_getDepositAddress {network : BitcoinNetwork} {deriveArbiterKey : String → Bytes}
    {arbiterId tradeId : String} {buyerPubkeyHex sellerPubkeyHex : Hex} {deposit : DepositAddress}
    {pubkeysHex : List Hex} {networkName : String}
    (h : getDepositAddress address network deriveArbiterKey arbiterId tradeId buyerPubkeyHex
      sellerPubkeyHex = .ok deposit)
    (hkeys : pubkeysHex.Perm [buyerPubkeyHex, sellerPubkeyHex, deposit.arbiterPubkeyHex])
    (hnetwork : networkFor networkName = .ok network) :
    deriveExpectedMultisigAddress address pubkeysHex 2 networkName = .ok deposit.address := by
  simp only [getDepositAddress, parsePubkey, bind, Except.bind, pure, Except.pure] at h
  split at h
  · cases h
  · rename_i buyer hbuyer
    split at h
    · cases h
    · rename_i seller hseller
      split at h
      · cases h
      · rename_i depositAddress haddress
        cases h
        split_ifs at hbuyer hseller
        cases hbuyer
        cases hseller
        have hbytes := hkeys.map bufferFromHex
        simp only [List.map_cons, List.map_nil, bufferFromHex_toHex] at hbytes
        simp only [deriveExpectedMultisigAddress, hnetwork, bind, Except.bind]
        rw [insertionSort_bufferLe hbytes]
        exact haddress

end Address

/-! ## Agreement with the server -/

/-- The PSBT the server makes of a built spend : the funding output, the script of its keys
and the outputs in their order. -/
structure PsbtOf (lib : BitcoinLib) (network : BitcoinNetwork) (depositAddress : String)
    (keys : List Bytes) (r : BuiltSpend) (psbt : Psbt) : Prop where
  input : ∃ input, psbt.txInputs = [input] ∧ toHex input.hash.reverse = r.utxo.txid ∧
    input.index = r.utxo.vout
  witnessUtxo : ∃ script, psbt.inputs[0]?.bind PsbtInput.witnessUtxo = some ⟨script, r.utxo.value⟩ ∧
    lib.toOutputScript network depositAddress = .ok script
  witnessScript : ∃ bytes, psbt.inputs[0]?.bind PsbtInput.witnessScript = some bytes ∧
    lib.p2ms bytes = .ok ⟨2, keys⟩
  outputs : List.Forall₂ (fun (o : TxOutput) (s : SpendOutput) => ∃ address,
    s.address = some address ∧ Pays lib network o ⟨address, s.value⟩) psbt.txOutputs r.outputs

/-- What the wallet expects of a release of the deposit under its keys. -/
def releaseIntent (networkName escrowId depositAddress : String) (keys : List Bytes)
    (r : BuiltSpend) (outputs : List ExpectedOutput) : ExpectedSigningIntent where
  operation := .RELEASE
  network := networkName
  escrowId := escrowId
  input := ⟨r.utxo.txid, r.utxo.vout, r.utxo.value, depositAddress⟩
  outputs := outputs
  minerFee := r.minerFeeSats
  threshold := 2
  participantPubkeys := keys.map toHex
  participantPubkeys_hex key hkey := by
    obtain ⟨bytes, -, rfl⟩ := List.mem_map.mp hkey
    exact isHex_toHex bytes
  requiredSigners := r.requiredSigners

/-- A release of an escrow that was funded with exactly the amount and the largest fee, and
the parameters the wallet computes its outputs from. -/
structure Release (escrow : SpendInput) (rate : RateText) (r : BuiltSpend)
    (params : FeeAwareReleaseParams) : Prop where
  reserve : 0 < escrow.maxFeeSats
  built : ∃ env, buildUnsignedRelease env escrow params.buyerAddress = .ok r
  funded : (r.utxo.value : ℤ) = escrow.lockedUnits + escrow.maxFeeSats
  lockedAmountSats : params.lockedAmountSats = escrow.lockedUnits
  protocolFeeRate : params.protocolFeeRate = rate.text
  minerFee : params.minerFee = r.minerFeeSats
  secondOutputAddress : escrow.snapshotFeeCollectionAddress = some params.secondOutputAddress

/-- The wallet and the server compute one escrow : the fee, the outputs of a release and the
address, so that the wallet accepts the server's PSBT and no other value of an output. -/
structure Agrees (escrow : SpendInput) (rate : RateText) : Prop where
  fee : computeProtocolFeeSatsExact escrow.lockedUnits rate.text = .ok escrow.maxFeeSats
  outputs : ∀ r params, Release escrow rate r params →
    ∃ outputs, buildExpectedFeeAwareReleaseOutputs params = .ok outputs ∧
      outputs.map ExpectedOutput.toSpend = r.outputs
  address : ∀ (address : P2wshAddress) (network : BitcoinNetwork)
    (deriveArbiterKey : String → Bytes) (arbiterId tradeId networkName : String)
    (buyerPubkeyHex sellerPubkeyHex : Hex) (deposit : DepositAddress) (pubkeysHex : List Hex),
    getDepositAddress address network deriveArbiterKey arbiterId tradeId buyerPubkeyHex
      sellerPubkeyHex = .ok deposit →
    pubkeysHex.Perm [buyerPubkeyHex, sellerPubkeyHex, deposit.arbiterPubkeyHex] →
    networkFor networkName = .ok network →
    deriveExpectedMultisigAddress address pubkeysHex 2 networkName = .ok deposit.address
  accepted : ∀ (lib : BitcoinLib) (network : BitcoinNetwork)
    (networkName escrowId depositAddress base64 : String) (keys keys' : List Bytes) (psbt : Psbt)
    (r : BuiltSpend) (params : FeeAwareReleaseParams), Release escrow rate r params →
    networkFor networkName = .ok network → keys.Perm keys' → lib.fromBase64 base64 = .ok psbt →
    PsbtOf lib network depositAddress keys r psbt →
    ∃ outputs, buildExpectedFeeAwareReleaseOutputs params = .ok outputs ∧
      (verifySigningIntent lib (releaseIntent networkName escrowId depositAddress keys' r outputs)
        base64 r.requiredSigners).ok = true
  deviation : ∀ (lib : BitcoinLib) (expected : ExpectedSigningIntent) (base64 : String)
    (requiredSigners : List String) (psbt : Psbt), lib.fromBase64 base64 = .ok psbt →
    psbt.txOutputs.map (fun o => (o.value : ℤ)) ≠ expected.outputs.map ExpectedOutput.value →
    (verifySigningIntent lib expected base64 requiredSigners).ok = false

/-- The exact fee is a double, and rounding the product to twenty digits does not carry into
it, or carries where doubles are too far apart to tell. -/
def FeeExact (lockedUnits rateUnits : ℕ) : Prop :=
  let fee : ℕ := lockedUnits * rateUnits / 10 ^ 8
  numberOf fee = fee ∧
    (Carries (lockedUnits * rateUnits) → 2 ^ 53 ≤ fee ∧ (2 ^ 54 ≤ fee ∨ fee % 4 = 0))

section Agreement

variable {escrow : SpendInput} {rate : RateText}

/-- When the server's reserve is the exact floor. -/
theorem maxFeeSats_exact_iff (hrate : escrow.policyRate = some rate.units)
    (hkept : escrow.snapshotFeeCollectionWaivedPreFunding = false) :
    escrow.maxFeeSats = (escrow.lockedUnits * rate.units / 10 ^ 8 : ℕ) ↔
      FeeExact escrow.lockedUnits rate.units := by
  have hfee : escrow.maxFeeSats =
      toUnits (ofUnits (productUnits escrow.lockedUnits rate.units)) := by
    rw [MultisigEscrow.maxFeeSats, hrate]
    simp only [hkept, Bool.false_eq_true, if_false]
    rw [computeMaxProtocolFee, computeProtocolFee, product_units]
  rw [hfee]
  exact toUnits_product_eq_iff _ _

/-- With the exact fee the outputs of a release are the server's. -/
theorem outputs_of_fee {r : BuiltSpend} {params : FeeAwareReleaseParams}
    (hfee : computeProtocolFeeSatsExact escrow.lockedUnits rate.text = .ok escrow.maxFeeSats)
    (h : Release escrow rate r params) :
    ∃ outputs, buildExpectedFeeAwareReleaseOutputs params = .ok outputs ∧
      outputs.map ExpectedOutput.toSpend = r.outputs := by
  obtain ⟨env, hbuilt⟩ := h.built
  have hpool : (r.utxo.value : ℤ) - r.minerFeeSats - escrow.maxFeeSats =
      escrow.lockedUnits - r.minerFeeSats := by
    rw [h.funded]
    ring
  refine ⟨[⟨params.buyerAddress, escrow.lockedUnits - r.minerFeeSats⟩,
    ⟨params.secondOutputAddress, escrow.maxFeeSats⟩], ?_, ?_⟩
  · rw [buildExpectedFeeAwareReleaseOutputs, h.lockedAmountSats, h.protocolFeeRate, hfee,
      h.minerFee]
  · rw [release_outputs hbuilt h.reserve, hpool, h.secondOutputAddress]
    rfl

/-- A PSBT whose outputs are the expected ones is accepted. -/
theorem accepted_of_outputs {lib : BitcoinLib} {network : BitcoinNetwork}
    {networkName escrowId depositAddress base64 : String} {keys keys' : List Bytes} {psbt : Psbt}
    {r : BuiltSpend} {outputs : List ExpectedOutput}
    (hconserves : spendTotal r.outputs + r.minerFeeSats = r.utxo.value)
    (houtputs : outputs.map ExpectedOutput.toSpend = r.outputs)
    (hnetwork : networkFor networkName = .ok network) (hkeys : keys.Perm keys')
    (hdecode : lib.fromBase64 base64 = .ok psbt)
    (hpsbt : PsbtOf lib network depositAddress keys r psbt) :
    (verifySigningIntent lib (releaseIntent networkName escrowId depositAddress keys' r outputs)
      base64 r.requiredSigners).ok = true := by
  obtain ⟨input, hinput, htxid, hvout⟩ := hpsbt.input
  obtain ⟨script, hutxo, hscript⟩ := hpsbt.witnessUtxo
  have hpays : List.Forall₂ (Pays lib network) psbt.txOutputs outputs := by
    have h := hpsbt.outputs
    rw [← houtputs, List.forall₂_map_right_iff] at h
    refine h.imp fun o e he => ?_
    obtain ⟨address, haddress, hpays⟩ := he
    obtain rfl : e.address = address := Option.some.inj haddress
    exact hpays
  have htotal : outputTotal psbt = spendTotal r.outputs := by
    rw [outputTotal, spendTotal, ← houtputs, List.map_map]
    congr 1
    clear houtputs hpsbt hinput hutxo hdecode
    generalize psbt.txOutputs = os at hpays
    induction hpays with
    | nil => rfl
    | cons hpay _ ih =>
      rw [List.map_cons, List.map_cons, ih, hpay.2]
      rfl
  refine verifySigningIntent_ok_iff.mpr ⟨network, psbt, hnetwork, hdecode,
    ⟨input, ⟨script, r.utxo.value⟩, ⟨2, keys⟩, hinput, htxid, hvout, hutxo, rfl, hscript,
      hpsbt.witnessScript, rfl, ?_, hpays, ?_⟩, rfl⟩
  · have hlower : (keys'.map toHex).map lowerHex = keys'.map toHex := by
      rw [List.map_map]
      exact List.map_congr_left fun key _ => lowerHex_toHex key
    change (keys.map toHex).Perm ((keys'.map toHex).map lowerHex)
    rw [hlower]
    exact hkeys.map toHex
  · change (r.utxo.value : ℤ) - outputTotal psbt = r.minerFeeSats
    rw [htotal]
    omega

/-- An output of another value is refused. -/
theorem refused_of_values {lib : BitcoinLib} {expected : ExpectedSigningIntent} {base64 : String}
    {requiredSigners : List String} {psbt : Psbt} (hdecode : lib.fromBase64 base64 = .ok psbt)
    (h : psbt.txOutputs.map (fun o => (o.value : ℤ)) ≠ expected.outputs.map ExpectedOutput.value) :
    (verifySigningIntent lib expected base64 requiredSigners).ok = false := by
  rw [← Bool.not_eq_true]
  intro hok
  obtain ⟨network, psbt', -, hdecode', ⟨input, utxo, script, hcommits⟩, -⟩ :=
    verifySigningIntent_ok_iff.mp hok
  obtain rfl : psbt' = psbt := Except.ok.inj (hdecode'.symm.trans hdecode)
  refine h ?_
  have hpays := hcommits.outputs
  clear hcommits h hok hdecode hdecode'
  generalize psbt'.txOutputs = os, expected.outputs = es at hpays
  induction hpays with
  | nil => rfl
  | cons hpay _ ih => rw [List.map_cons, List.map_cons, ih, hpay.2]

theorem wallet_agrees_iff (hrate : escrow.policyRate = some rate.units)
    (hkept : escrow.snapshotFeeCollectionWaivedPreFunding = false) :
    Agrees escrow rate ↔
      rate.exponent = none ∧ FeeExact escrow.lockedUnits rate.units := by
  constructor
  · intro h
    have hfee := h.fee
    cases hexp : rate.exponent with
    | some e =>
      rw [computeProtocolFeeSatsExact, rate.parse_exponent hexp] at hfee
      cases hfee
    | none =>
      rw [computeProtocolFeeSatsExact_text rate hexp, Except.ok.injEq] at hfee
      exact ⟨rfl, (maxFeeSats_exact_iff hrate hkept).mp hfee.symm⟩
  · rintro ⟨hexp, hexact⟩
    have hfee : computeProtocolFeeSatsExact escrow.lockedUnits rate.text =
        .ok escrow.maxFeeSats := by
      rw [computeProtocolFeeSatsExact_text rate hexp, (maxFeeSats_exact_iff hrate hkept).mpr hexact]
    refine ⟨hfee, fun r params h => outputs_of_fee hfee h, ?_, ?_, ?_⟩
    · intro address network deriveArbiterKey arbiterId tradeId networkName buyerPubkeyHex
        sellerPubkeyHex deposit pubkeysHex h hkeys hnetwork
      exact derive_eq_getDepositAddress address h hkeys hnetwork
    · intro lib network networkName escrowId depositAddress base64 keys keys' psbt r params h
        hnetwork hkeys hdecode hpsbt
      obtain ⟨outputs, hbuilt, houtputs⟩ := outputs_of_fee hfee h
      obtain ⟨env, hrelease⟩ := h.built
      exact ⟨outputs, hbuilt, accepted_of_outputs (release_conserves hrelease).1.sum houtputs
        hnetwork hkeys hdecode hpsbt⟩
    · intro lib expected base64 requiredSigners psbt hdecode hvalues
      exact refused_of_values hdecode hvalues

end Agreement

/-- `0.00333333`. -/
def sampleRate : RateText where
  intPart := natText 0
  fracPart := padded 8 333333
  exponent := none
  intPart_ne := natText_ne_nil 0
  digits u hu := (List.mem_append.mp hu).elim isDigit_of_mem_natText isDigit_of_mem_padded
  units := 333333
  units_lt := by norm_num
  value := by
    rw [natValue_append, natValue_natText, natValue_padded, length_padded, ofUnits]
    norm_num

theorem wallet_agrees_sample :
    (sampleEscrow 100000000 (by decide) 333333).policyRate = some sampleRate.units ∧
      (Agrees (sampleEscrow 100000000 (by decide) 333333) sampleRate ↔
        sampleRate.exponent = none ∧ FeeExact 100000000 333333) :=
  ⟨rfl, wallet_agrees_iff rfl rfl⟩

/-- An escrow of 4000000.03000003 bitcoin : the wallet's fee is a satoshi less than the
server's. -/
theorem fee_carries :
    ¬ ∀ (escrow : SpendInput) (rate : RateText), escrow.policyRate = some rate.units →
      escrow.snapshotFeeCollectionWaivedPreFunding = false → Agrees escrow rate := by
  intro h
  have hrate : (sampleEscrow 400000003000003 (by decide) 333333).policyRate =
      some sampleRate.units := rfl
  have hkept : (sampleEscrow 400000003000003 (by decide)
      333333).snapshotFeeCollectionWaivedPreFunding = false := rfl
  have hfee := (h _ _ hrate hkept).fee
  rw [computeProtocolFeeSatsExact_text sampleRate rfl, Except.ok.injEq] at hfee
  have hexact : FeeExact 400000003000003 333333 :=
    (maxFeeSats_exact_iff hrate hkept).mp hfee.symm
  have hcarries : Carries (400000003000003 * 333333) := by
    have hlog : Nat.log 10 (400000003000003 * 333333) = 20 := by
      rw [Nat.log_eq_iff (.inr ⟨by decide, by decide⟩)]
      norm_num
    refine ⟨by norm_num, ?_⟩
    rw [hlog]
    norm_num
  have hlarge := (hexact.2 hcarries).1
  norm_num at hlarge

end Sails.Wallet
