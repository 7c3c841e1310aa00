import SailsProtocol.Escrow.Script
import SailsProtocol.Text.CodeUnits

/-!
# What the wallet checks before it signs

`wallet-verification.ts` of the SDK decodes the PSBT the server sent and compares it, field
by field, with what the caller expects to sign (`verifySigningIntent`).
`verifyAndSignEscrowPsbt` signs input 0 after the comparison, and `escrow-key.ts` allows
`SIGHASH_ALL` only. The library for Bitcoin, which decodes PSBTs, addresses and scripts, is a
parameter (`BitcoinLib`).

The comparison lists its mismatches, one part of the PSBT after the other.
`verifySigningIntent_ok_iff` says which PSBTs have none : the one input, the outputs in their
order, the fee, the script and the keys are the expected ones. The version, the sequence of
the input and the lock time are compared with nothing, so they are all that two accepted
PSBTs can differ in (`signing_intent_pins_iff`).
-/

namespace Sails.Wallet

/-! ## Networks -/

/-- The networks of `bitcoinjs-lib`. -/
inductive BitcoinNetwork where
  | mainnet
  | testnet
  | regtest
  deriving DecidableEq, Repr

/-- Names that every object answers to, `RECOGNIZED` too. -/
def objectNames : List String :=
  ["constructor", "hasOwnProperty", "isPrototypeOf", "propertyIsEnumerable", "toLocaleString",
    "toString", "valueOf", "__defineGetter__", "__defineSetter__", "__lookupGetter__",
    "__lookupSetter__", "__proto__"]

/-- `networkFor` after `normalizeBitcoinNetwork` : what is neither `mainnet` nor `regtest`
there is testnet. -/
def networkFor (raw : String) : Except String BitcoinNetwork :=
  if raw = "" then
    .error ("Bitcoin network is not configured. Expected one of: mainnet, testnet, regtest " ++
      "('bitcoin' accepted as an alias for mainnet).")
  else if raw = "mainnet" ∨ raw = "bitcoin" then .ok .mainnet
  else if raw = "regtest" then .ok .regtest
  else if raw = "testnet" ∨ raw ∈ objectNames then .ok .testnet
  else
    .error ("Unrecognized Bitcoin network '" ++ raw ++ "'. Expected one of: mainnet, testnet, " ++
      "regtest ('bitcoin' accepted as an alias for mainnet). Refusing to silently fall back to " ++
      "any network.")

/-! ## Transactions -/

/-- An input of a transaction. -/
structure TxInput where
  /-- The outpoint's hash in internal byte order. -/
  hash : Bytes
  index : ℕ
  sequence : ℕ
  deriving DecidableEq, Repr

/-- An output of a transaction. -/
structure TxOutput where
  script : Bytes
  value : ℕ
  deriving DecidableEq, Repr

/-- A transaction without its witnesses. -/
structure UnsignedTx where
  version : ℕ
  txInputs : List TxInput
  txOutputs : List TxOutput
  locktime : ℕ
  deriving DecidableEq, Repr

/-- What a PSBT says of an input beside the transaction. -/
structure PsbtInput where
  witnessUtxo : Option TxOutput
  witnessScript : Option Bytes
  sighashType : Option ℕ
  deriving DecidableEq, Repr

/-- A partially signed transaction. -/
structure Psbt extends UnsignedTx where
  inputs : List PsbtInput
  deriving DecidableEq, Repr

/-! ## Hex text -/

/-- A hex digit. -/
def hexChar (d : ℕ) : Char :=
  if d < 10 then Char.ofNat (48 + d) else Char.ofNat (87 + d)

/-- `buffer.toString('hex')`. -/
def toHex (bytes : Bytes) : String :=
  String.ofList (bytes.flatMap fun b => [hexChar (b.toNat / 16), hexChar (b.toNat % 16)])

/-- The hex digits, in both cases. -/
def hexDigits : List Char :=
  ['0', '1', '2', '3', '4', '5', '6', '7', '8', '9', 'a', 'b', 'c', 'd', 'e', 'f',
    'A', 'B', 'C', 'D', 'E', 'F']

/-- A string of hex digits. -/
def IsHex (s : String) : Prop :=
  ∀ c ∈ s.toList, c ∈ hexDigits

instance (s : String) : Decidable (IsHex s) :=
  inferInstanceAs (Decidable (∀ c ∈ s.toList, _))

theorem hexDigit_hexChar {d : ℕ} (h : d < 16) : hexDigit (hexChar d) = some d := by
  interval_cases d <;> rfl

/-- Bytes of one hex text are the same. -/
theorem toHex_injective : Function.Injective toHex := by
  intro bytes bytes' h
  replace h := String.ofList_injective h
  induction bytes generalizing bytes' with
  | nil =>
    cases bytes' with
    | nil => rfl
    | cons b bytes' => cases h
  | cons a bytes ih =>
    cases bytes' with
    | nil => cases h
    | cons b bytes' =>
      simp only [List.flatMap_cons, List.cons_append, List.nil_append, List.cons.injEq] at h
      obtain ⟨hhigh, hlow, hrest⟩ := h
      have ha := a.toNat_lt
      have hb := b.toNat_lt
      have hdiv := congrArg hexDigit hhigh
      have hmod := congrArg hexDigit hlow
      rw [hexDigit_hexChar (by omega), hexDigit_hexChar (by omega), Option.some.injEq] at hdiv hmod
      have hab : a = b := UInt8.toNat_inj.mp (by omega)
      rw [hab, ih hrest]

theorem hexChar_mem {d : ℕ} (h : d < 16) : hexChar d ∈ hexDigits := by
  interval_cases d <;> decide

/-- What is printed is hex. -/
theorem isHex_toHex (bytes : Bytes) : IsHex (toHex bytes) := by
  intro c hc
  rw [toHex, String.toList_ofList] at hc
  obtain ⟨b, -, hmem⟩ := List.mem_flatMap.mp hc
  have hb := b.toNat_lt
  rcases List.mem_cons.mp hmem with rfl | hmem
  · exact hexChar_mem (by omega)
  · rw [List.mem_singleton.mp hmem]
    exact hexChar_mem (by omega)

/-- Lower case of ASCII letters. -/
def lowerHex (s : String) : String :=
  String.ofList (s.toList.map Char.toLower)

theorem toLower_hexChar {d : ℕ} (h : d < 16) : (hexChar d).toLower = hexChar d := by
  interval_cases d <;> rfl

theorem lowerHex_toHex (bytes : Bytes) : lowerHex (toHex bytes) = toHex bytes := by
  rw [lowerHex, toHex, String.toList_ofList, List.map_flatMap]
  congr 2
  funext b
  have hb := b.toNat_lt
  simp [toLower_hexChar (d := b.toNat / 16) (by omega),
    toLower_hexChar (d := b.toNat % 16) (by omega)]

theorem comma_not_mem_lowerHex {s : String} (h : IsHex s) : ',' ∉ (lowerHex s).toList := by
  rw [lowerHex, String.toList_ofList, List.mem_map]
  rintro ⟨c, hc, hlower⟩
  have hdigits : ∀ d ∈ hexDigits, d.toLower ≠ ',' := by simp [hexDigits]
  exact hdigits c (h c hc) hlower

theorem isHex_lowerHex {s : String} (h : IsHex s) : IsHex (lowerHex s) := by
  intro c hc
  rw [lowerHex, String.toList_ofList, List.mem_map] at hc
  obtain ⟨d, hd, rfl⟩ := hc
  have hdigits : ∀ d ∈ hexDigits, d.toLower ∈ hexDigits := by simp [hexDigits]
  exact hdigits d (h d hd)

/-- The code units of hex text are read back as its digits. -/
theorem js_injective_of_hex {s t : String} (hs : IsHex s) (ht : IsHex t)
    (h : Text.js s = Text.js t) : s = t := by
  have hunits : ∀ c ∈ hexDigits, Text.charUnits c = [UInt16.ofNat c.toNat] ∧
      Char.ofNat (UInt16.ofNat c.toNat).toNat = c := by
    intro c hc
    fin_cases hc <;> exact ⟨rfl, rfl⟩
  have hread : ∀ r : String, IsHex r →
      (Text.js r).map (fun u => Char.ofNat u.toNat) = r.toList := by
    intro r hr
    rw [Text.js, List.map_flatMap]
    calc r.toList.flatMap (fun c => (Text.charUnits c).map fun u => Char.ofNat u.toNat)
        = r.toList.flatMap (fun c => [c]) := by
          refine List.flatMap_congr fun c hc => ?_
          rw [(hunits c (hr c hc)).1, List.map_singleton, (hunits c (hr c hc)).2]
      _ = r.toList := List.flatMap_singleton' _
  rw [← String.toList_inj, ← hread s hs, ← hread t ht, h]

/-! ## The library and the expectation -/

/-- The parts of bitcoinjs-lib and of the runtime that the wallet uses. What throws gives the
message of its error. -/
structure BitcoinLib where
  /-- `Psbt.fromBase64`. -/
  fromBase64 : String → Except String Psbt
  /-- `address.toOutputScript`. -/
  toOutputScript : BitcoinNetwork → String → Except String Bytes
  /-- The address `txOutputs` shows for a script, if it is a standard one. -/
  fromOutputScript : BitcoinNetwork → Bytes → Option String
  /-- `payments.p2ms({ output })`. -/
  p2ms : Bytes → Except String P2ms
  /-- A script has a key, and a key is a point of the curve. -/
  p2ms_pubkeys : ∀ script decoded, p2ms script = .ok decoded →
    decoded.pubkeys ≠ [] ∧ [] ∉ decoded.pubkeys
  /-- `ECPair.fromPrivateKey`. -/
  fromPrivateKey : Bytes → Except String Unit
  /-- The script code and the value an input is signed with, after the checks on its
  witness and on the key. -/
  scriptCode : Psbt → ℕ → Bytes → Except String (Bytes × ℕ)
  /-- `String.prototype.toLowerCase`. -/
  toLowerCase : String → String
  toLowerCase_hex : ∀ s, IsHex s → toLowerCase s = lowerHex s

/-- `EscrowOperation`. -/
inductive EscrowOperation where
  | RELEASE
  | REFUND
  | SPLIT
  deriving DecidableEq, Repr

/-- The input a wallet expects. -/
structure ExpectedInput where
  txid : String
  vout : ℕ
  value : ℤ
  multisigAddress : String
  deriving DecidableEq, Repr

/-- An output a wallet expects. -/
structure ExpectedOutput where
  address : String
  value : ℤ
  deriving DecidableEq, Repr

/-- `ExpectedSigningIntent`. -/
structure ExpectedSigningIntent where
  operation : EscrowOperation
  network : String
  escrowId : String
  input : ExpectedInput
  outputs : List ExpectedOutput
  minerFee : ℤ
  threshold : ℕ
  participantPubkeys : List String
  /-- The keys are hex strings. -/
  participantPubkeys_hex : ∀ key ∈ participantPubkeys, IsHex key
  requiredSigners : List String
  deriving DecidableEq

/-- `SigningIntentMismatch`. -/
structure SigningIntentMismatch where
  field : String
  expected : String
  actual : String
  deriving DecidableEq, Repr

/-- `SigningIntentVerification`. -/
structure SigningIntentVerification where
  ok : Bool
  mismatches : List SigningIntentMismatch
  deriving DecidableEq, Repr

/-! ## The comparison -/

/-- The text of a JSON string. -/
def jsonQuote (s : String) : String :=
  let escape (c : Char) : String :=
    if c = '"' then "\\\"" else if c = '\\' then "\\\\" else if c = '\n' then "\\n"
    else if c = '\r' then "\\r" else if c = '\t' then "\\t" else if c.toNat = 8 then "\\b"
    else if c.toNat = 12 then "\\f"
    else if c.toNat < 32 then "\\u00" ++ toHex [UInt8.ofNat c.toNat] else c.toString
  "\"" ++ String.join (s.toList.map escape) ++ "\""

/-- A mismatch unless the two values are equal. -/
def compareField {α : Type} [DecidableEq α] [ToString α] (field : String)
    (expected actual : α) : List SigningIntentMismatch :=
  if actual = expected then [] else [⟨field, toString expected, toString actual⟩]

@[simp] theorem compareField_eq_nil_iff {α : Type} [DecidableEq α] [ToString α] {field : String}
    {expected actual : α} : compareField field expected actual = [] ↔ actual = expected := by
  unfold compareField
  split_ifs with h <;> simp [h]

section Comparison

variable (lib : BitcoinLib) (network : BitcoinNetwork) (expected : ExpectedSigningIntent)

/-- The order of `Array.prototype.sort` : by code units. -/
def unitsLe (s t : String) : Bool :=
  decide (Text.js s ≤ Text.js t)

/-- The values in lower case, sorted and joined. -/
def sortedJoin (values : List String) : String :=
  ",".intercalate ((values.map lib.toLowerCase).mergeSort unitsLe)

/-- The text of an address that is not of the network. -/
def validForNetwork (address : String) : String :=
  address ++ " (valid for network \"" ++ expected.network ++ "\")"

/-- The value and the script of the output that is spent. -/
def utxoMismatches : Option TxOutput → List SigningIntentMismatch
  | none => [⟨"input.witnessUtxo", "present", "missing"⟩]
  | some utxo =>
    compareField "input.value" expected.input.value (utxo.value : ℤ) ++
      match lib.toOutputScript network expected.input.multisigAddress with
      | .error e => [⟨"input.multisigAddress",
          validForNetwork expected expected.input.multisigAddress,
          "does not decode for this network: " ++ e⟩]
      | .ok script =>
        if utxo.script = script then []
        else [⟨"input.multisigAddress", expected.input.multisigAddress,
          "input script does not match this escrow's known deposit address (script: " ++
            toHex utxo.script ++ ")"⟩]

/-- The threshold and the keys of the script. -/
def scriptMismatches : Option Bytes → List SigningIntentMismatch
  | none => [⟨"witnessScript", "present", "missing"⟩]
  | some witnessScript =>
    match lib.p2ms witnessScript with
    | .error e => [⟨"witnessScript", "a valid " ++ toString expected.threshold ++ "-of-" ++
        toString expected.participantPubkeys.length ++ " multisig script",
        "failed to decode: " ++ e⟩]
    | .ok decoded =>
      compareField "threshold" expected.threshold decoded.m ++
        compareField "participantPubkeys" (sortedJoin lib expected.participantPubkeys)
          (sortedJoin lib (decoded.pubkeys.map toHex))

/-- The mismatches of the inputs. -/
def inputMismatches (psbt : Psbt) : List SigningIntentMismatch :=
  match psbt.txInputs with
  | [input] =>
    compareField "input.txid" expected.input.txid (toHex input.hash.reverse) ++
      compareField "input.vout" expected.input.vout input.index ++
      utxoMismatches lib network expected (psbt.inputs[0]?.bind PsbtInput.witnessUtxo) ++
      scriptMismatches lib expected (psbt.inputs[0]?.bind PsbtInput.witnessScript)
  | txInputs => [⟨"input.count", "1", toString txInputs.length⟩]

/-- What is spent : the value of the output, if the PSBT shows it. -/
def actualInputValue (psbt : Psbt) : ℤ :=
  match psbt.txInputs, psbt.inputs[0]?.bind PsbtInput.witnessUtxo with
  | [_], some utxo => utxo.value
  | _, _ => expected.input.value

/-- How an output is shown : by its address, or by its script. -/
def shownOutput (output : TxOutput) : String :=
  (lib.fromOutputScript network output.script).getD
    ("non-standard script: " ++ toHex output.script)

/-- The mismatches of an output. -/
def outputMismatches (actual : TxOutput × ℕ) : List SigningIntentMismatch :=
  let (output, i) := actual
  match expected.outputs[i]? with
  | none => [⟨"outputs[" ++ toString i ++ "]", "(no output expected at this index)",
      shownOutput lib network output⟩]
  | some expectedOutput =>
    (match lib.toOutputScript network expectedOutput.address with
      | .error e => [⟨"outputs[" ++ toString i ++ "].address",
          validForNetwork expected expectedOutput.address,
          "does not decode for this network: " ++ e⟩]
      | .ok script =>
        if output.script = script then []
        else [⟨"outputs[" ++ toString i ++ "].address", expectedOutput.address,
          shownOutput lib network output⟩]) ++
      compareField ("outputs[" ++ toString i ++ "].value") expectedOutput.value (output.value : ℤ)

/-- The value of the outputs together. -/
def outputTotal (psbt : Psbt) : ℤ :=
  (psbt.txOutputs.map fun o => (o.value : ℤ)).sum

/-- The mismatches of a transaction, in the order they are reported. -/
def mismatchesOf (psbt : Psbt) (requiredSignersActual : List String) :
    List SigningIntentMismatch :=
  inputMismatches lib network expected psbt ++
    compareField "outputs.count" expected.outputs.length psbt.txOutputs.length ++
    psbt.txOutputs.zipIdx.flatMap (outputMismatches lib network expected) ++
    compareField "minerFee" expected.minerFee (actualInputValue expected psbt - outputTotal psbt) ++
    compareField "requiredSigners" (sortedJoin lib expected.requiredSigners)
      (sortedJoin lib requiredSignersActual)

/-- `verifySigningIntent` : decode, and compare with what is expected. -/
def verifySigningIntent (psbtBase64 : String) (requiredSignersActual : List String) :
    SigningIntentVerification :=
  match networkFor expected.network with
  | .error e => ⟨false, [⟨"network", "mainnet, testnet, or regtest",
      jsonQuote expected.network ++ " — " ++ e⟩]⟩
  | .ok network =>
    match lib.fromBase64 psbtBase64 with
    | .error e => ⟨false, [⟨"psbt",
        "a valid, parseable PSBT for network \"" ++ expected.network ++ "\"",
        "failed to parse: " ++ e⟩]⟩
    | .ok psbt =>
      let mismatches := mismatchesOf lib network expected psbt requiredSignersActual
      ⟨mismatches.isEmpty, mismatches⟩

end Comparison

/-! ## Signing -/

/-- `Transaction.SIGHASH_ALL`. -/
def SIGHASH_ALL : ℕ := 1

/-- What a signature on an input is made over. -/
structure Signature where
  privateKey : Bytes
  sighashType : ℕ
  tx : UnsignedTx
  index : ℕ
  scriptCode : Bytes
  value : ℕ
  deriving DecidableEq, Repr

/-- `psbt.signInput` : the sighash type of the input is one of the allowed ones. -/
def signInput (lib : BitcoinLib) (psbt : Psbt) (index : ℕ) (privateKey : Bytes)
    (allowed : List ℕ) : Except String Signature := do
  let (scriptCode, value) ← lib.scriptCode psbt index privateKey
  let requested := psbt.inputs[index]?.bind PsbtInput.sighashType
  let sighashType := (requested.filter (· ≠ 0)).getD SIGHASH_ALL
  if sighashType ∈ allowed then
    pure ⟨privateKey, sighashType, psbt.toUnsignedTx, index, scriptCode, value⟩
  else throw "Sighash type is not allowed."

/-- `signEscrowPsbt`. -/
def signEscrowPsbt (lib : BitcoinLib) (psbtBase64 : String) (privateKey : Bytes) :
    Except String Signature := do
  let psbt ← lib.fromBase64 psbtBase64
  lib.fromPrivateKey privateKey
  signInput lib psbt 0 privateKey [SIGHASH_ALL]

/-- The mismatches of a PSBT that is not signed, or the error of a signer that failed. -/
inductive SigningError where
  | verification (mismatches : List SigningIntentMismatch)
  | signing (message : String)
  deriving DecidableEq, Repr

/-- `verifyAndSignEscrowPsbt`: nothing is signed that does not verify. -/
def verifyAndSignEscrowPsbt (lib : BitcoinLib) (psbtBase64 : String)
    (expected : ExpectedSigningIntent) (requiredSignersActual : List String)
    (privateKey : Bytes) : Except SigningError Signature :=
  let result := verifySigningIntent lib expected psbtBase64 requiredSignersActual
  if result.ok = false then .error (.verification result.mismatches)
  else (signEscrowPsbt lib psbtBase64 privateKey).mapError .signing

/-! ## What a PSBT without a mismatch is -/

section Verified

variable {lib : BitcoinLib} {network : BitcoinNetwork} {expected : ExpectedSigningIntent}

theorem unitsLe_total (s t : String) : (unitsLe s t || unitsLe t s) = true := by
  simpa [unitsLe] using Std.le_total (a := Text.js s) (b := Text.js t)

theorem unitsLe_trans (s t u : String) (h : unitsLe s t = true) (h' : unitsLe t u = true) :
    unitsLe s u = true := by
  simp only [unitsLe, decide_eq_true_eq] at h h' ⊢
  exact Std.le_trans h h'

theorem unitsLe_antisymm {s t : String} (hs : IsHex s) (ht : IsHex t) (h : unitsLe s t = true)
    (h' : unitsLe t s = true) : s = t := by
  simp only [unitsLe, decide_eq_true_eq] at h h'
  exact js_injective_of_hex hs ht (Std.le_antisymm h h')

/-- Strings without a comma can be read back from their join. -/
theorem intercalate_comma_inj {l m : List String} (hl : ∀ s ∈ l, ',' ∉ s.toList)
    (hm : ∀ s ∈ m, ',' ∉ s.toList) (hlne : l ≠ []) (hmne : m ≠ [])
    (h : ",".intercalate l = ",".intercalate m) : l = m := by
  have hchars :
      [','].intercalate (l.map String.toList) = [','].intercalate (m.map String.toList) := by
    have := congrArg String.toList h
    rwa [String.toList_intercalate, String.toList_intercalate] at this
  have hsplit := congrArg (List.splitOn ',') hchars
  rw [List.splitOn_intercalate ',' (by simpa using hl) (by simpa using hlne),
    List.splitOn_intercalate ',' (by simpa using hm) (by simpa using hmne)] at hsplit
  exact List.map_injective_iff.mpr (fun _ _ => String.toList_inj.mp) hsplit

theorem map_toLowerCase {keys : List String} (h : ∀ key ∈ keys, IsHex key) :
    keys.map lib.toLowerCase = keys.map lowerHex :=
  List.map_congr_left fun key hkey => lib.toLowerCase_hex key (h key hkey)

/-- Two joins of hex keys are equal exactly when the keys are the same up to order and case. -/
theorem sortedJoin_eq_iff {keys keys' : List String} (h : ∀ key ∈ keys, IsHex key)
    (h' : ∀ key ∈ keys', IsHex key) (hne : keys ≠ []) (hne' : keys' ≠ []) :
    sortedJoin lib keys = sortedJoin lib keys' ↔
      (keys.map lowerHex).Perm (keys'.map lowerHex) := by
  have hperm : ∀ l : List String, (l.mergeSort unitsLe).Perm l := fun l => List.mergeSort_perm l _
  rw [sortedJoin, sortedJoin, map_toLowerCase h, map_toLowerCase h']
  have hcomma : ∀ l : List String, (∀ key ∈ l, IsHex key) →
      ∀ s ∈ (l.map lowerHex).mergeSort unitsLe, ',' ∉ s.toList := by
    intro l hl s hs
    obtain ⟨key, hkey, rfl⟩ := List.mem_map.mp ((hperm _).mem_iff.mp hs)
    exact comma_not_mem_lowerHex (hl key hkey)
  have hsorted : ∀ l : List String,
      (l.mergeSort unitsLe).Pairwise (fun s t => unitsLe s t = true) :=
    fun l => List.pairwise_mergeSort unitsLe_trans unitsLe_total l
  constructor
  · intro heq
    have hlists := intercalate_comma_inj (hcomma keys h) (hcomma keys' h')
      (fun hnil => hne (by simpa [hnil] using hperm (keys.map lowerHex)))
      (fun hnil => hne' (by simpa [hnil] using hperm (keys'.map lowerHex))) heq
    exact (hperm _).symm.trans (hlists ▸ hperm _)
  · intro hkeys
    congr 1
    refine List.Perm.eq_of_pairwise (fun s t hs ht hst hts => ?_) (hsorted _) (hsorted _)
      ((hperm _).trans (hkeys.trans (hperm _).symm))
    obtain ⟨key, hkey, rfl⟩ := List.mem_map.mp ((hperm _).mem_iff.mp hs)
    obtain ⟨key', hkey', rfl⟩ := List.mem_map.mp ((hperm _).mem_iff.mp ht)
    exact unitsLe_antisymm (isHex_lowerHex (h key hkey)) (isHex_lowerHex (h' key' hkey')) hst hts

/-- Only no keys at all join to the empty text. -/
theorem sortedJoin_eq_empty {keys : List Bytes} (h : [] ∉ keys)
    (heq : sortedJoin lib (keys.map toHex) = "") : keys = [] := by
  have hkeys : ∀ key ∈ keys.map toHex, IsHex key := by
    simp only [List.mem_map]
    rintro _ ⟨key, -, rfl⟩
    exact isHex_toHex key
  have hperm := List.mergeSort_perm ((keys.map toHex).map lib.toLowerCase) unitsLe
  rw [sortedJoin] at heq
  cases hsort : ((keys.map toHex).map lib.toLowerCase).mergeSort unitsLe with
  | nil =>
    rw [hsort] at hperm
    simpa using hperm
  | cons s rest =>
    exfalso
    have hs : s = "" := by
      rw [hsort] at heq
      have hlist := congrArg String.toList heq
      rw [String.toList_intercalate] at hlist
      cases rest with
      | nil => simpa using hlist
      | cons t rest =>
        simp [List.intercalate_cons_cons] at hlist
    have hmem : s ∈ (keys.map toHex).map lib.toLowerCase :=
      hperm.mem_iff.mp (hsort ▸ List.mem_cons_self)
    rw [map_toLowerCase hkeys] at hmem
    simp only [List.map_map, List.mem_map, Function.comp_apply, lowerHex_toHex] at hmem
    obtain ⟨key, hkey, hempty⟩ := hmem
    have : key = [] := toHex_injective (hempty.trans (hs.trans rfl))
    exact h (this ▸ hkey)

/-- An output pays the value to the address that is expected. -/
def Pays (lib : BitcoinLib) (network : BitcoinNetwork) (output : TxOutput)
    (expected : ExpectedOutput) : Prop :=
  lib.toOutputScript network expected.address = .ok output.script ∧
    (output.value : ℤ) = expected.value

theorem Pays.leftUnique : Relator.LeftUnique (Pays lib network) := by
  rintro ⟨script, value⟩ ⟨script', value'⟩ e ⟨hscript, hvalue⟩ ⟨hscript', hvalue'⟩
  have hvalues : (value : ℤ) = value' := hvalue.trans hvalue'.symm
  rw [TxOutput.mk.injEq]
  exact ⟨Except.ok.inj (hscript.symm.trans hscript'), by exact_mod_cast hvalues⟩

/-- The facts a PSBT without a mismatch has : the input, the output it spends and its script
are the expected ones, and so are the outputs and the fee. -/
structure Commits (lib : BitcoinLib) (network : BitcoinNetwork) (expected : ExpectedSigningIntent)
    (psbt : Psbt) (input : TxInput) (utxo : TxOutput) (script : P2ms) : Prop where
  txInputs : psbt.txInputs = [input]
  txid : toHex input.hash.reverse = expected.input.txid
  vout : input.index = expected.input.vout
  witnessUtxo : psbt.inputs[0]?.bind PsbtInput.witnessUtxo = some utxo
  value : (utxo.value : ℤ) = expected.input.value
  inputScript : lib.toOutputScript network expected.input.multisigAddress = .ok utxo.script
  witnessScript : ∃ bytes, psbt.inputs[0]?.bind PsbtInput.witnessScript = some bytes ∧
    lib.p2ms bytes = .ok script
  threshold : script.m = expected.threshold
  pubkeys : (script.pubkeys.map toHex).Perm (expected.participantPubkeys.map lowerHex)
  outputs : List.Forall₂ (Pays lib network) psbt.txOutputs expected.outputs
  minerFee : utxo.value - outputTotal psbt = expected.minerFee

/-- The funding matches when its value and its script do. -/
theorem utxoMismatches_eq_nil_iff {found : Option TxOutput} :
    utxoMismatches lib network expected found = [] ↔ ∃ utxo, found = some utxo ∧
      (utxo.value : ℤ) = expected.input.value ∧
      lib.toOutputScript network expected.input.multisigAddress = .ok utxo.script := by
  cases found with
  | none => simp [utxoMismatches]
  | some utxo =>
    simp only [utxoMismatches, List.append_eq_nil_iff, compareField_eq_nil_iff]
    cases hscript : lib.toOutputScript network expected.input.multisigAddress with
    | error e => simp
    | ok script =>
      by_cases heq : utxo.script = script
      · simp [heq]
      · simp [heq, Ne.symm heq]

/-- The script matches when its threshold and its keys do. -/
theorem scriptMismatches_eq_nil_iff {found : Option Bytes} :
    scriptMismatches lib expected found = [] ↔ ∃ script : P2ms,
      (∃ bytes, found = some bytes ∧ lib.p2ms bytes = .ok script) ∧
      script.m = expected.threshold ∧
      (script.pubkeys.map toHex).Perm (expected.participantPubkeys.map lowerHex) := by
  cases found with
  | none => simp [scriptMismatches]
  | some bytes =>
    simp only [scriptMismatches, Option.some.injEq]
    cases hdecode : lib.p2ms bytes with
    | error e => simp [hdecode]
    | ok decoded =>
      obtain ⟨hne, hempty⟩ := lib.p2ms_pubkeys bytes decoded hdecode
      have hhex : ∀ key ∈ decoded.pubkeys.map toHex, IsHex key := by
        simp only [List.mem_map]
        rintro _ ⟨key, -, rfl⟩
        exact isHex_toHex key
      have hlower : (decoded.pubkeys.map toHex).map lowerHex = decoded.pubkeys.map toHex := by
        rw [List.map_map]
        exact List.map_congr_left fun key _ => lowerHex_toHex key
      have hkeys : sortedJoin lib (decoded.pubkeys.map toHex) =
          sortedJoin lib expected.participantPubkeys ↔
            (decoded.pubkeys.map toHex).Perm (expected.participantPubkeys.map lowerHex) := by
        rcases eq_or_ne expected.participantPubkeys [] with hnil | hsome
        · have hjoin : sortedJoin lib expected.participantPubkeys = "" := by
            rw [hnil]
            simp [sortedJoin]
          refine iff_of_false (fun heq => hne (sortedJoin_eq_empty hempty (heq.trans hjoin)))
            (fun hperm => hne ?_)
          simpa [hnil] using hperm
        · rw [sortedJoin_eq_iff hhex expected.participantPubkeys_hex (by simpa using hne) hsome,
            hlower]
      simp only [List.append_eq_nil_iff, compareField_eq_nil_iff, hkeys]
      exact ⟨fun h => ⟨decoded, ⟨bytes, rfl, hdecode⟩, h⟩, fun ⟨script, ⟨_, rfl, hs⟩, h⟩ => by
        rw [hdecode, Except.ok.injEq] at hs
        rwa [hs]⟩

/-- An output matches when it is the expected one of its index. -/
theorem outputMismatches_eq_nil_iff {output : TxOutput} {i : ℕ} :
    outputMismatches lib network expected (output, i) = [] ↔
      ∃ e, expected.outputs[i]? = some e ∧ Pays lib network output e := by
  simp only [outputMismatches, Pays]
  cases expected.outputs[i]? with
  | none => simp
  | some e =>
    simp only [List.append_eq_nil_iff, compareField_eq_nil_iff, Option.some.injEq,
      exists_eq_left']
    refine and_congr_left fun _ => ?_
    cases lib.toOutputScript network e.address with
    | error err => simp
    | ok script =>
      by_cases heq : output.script = script
      · simp [heq]
      · simp [heq, Ne.symm heq]

/-- The outputs have no mismatch exactly when they are the expected ones, one by one. -/
theorem outputs_match_iff {psbt : Psbt} :
    (psbt.txOutputs.length = expected.outputs.length ∧
        psbt.txOutputs.zipIdx.flatMap (outputMismatches lib network expected) = []) ↔
      List.Forall₂ (Pays lib network) psbt.txOutputs expected.outputs := by
  rw [List.forall₂_iff_get]
  refine and_congr_right fun hlen => ?_
  rw [List.flatMap_eq_nil_iff]
  constructor
  · intro h i hi hi'
    have hmem : (psbt.txOutputs[i], i) ∈ psbt.txOutputs.zipIdx := by
      rw [List.mem_zipIdx_iff_getElem?]
      exact List.getElem?_eq_getElem hi
    obtain ⟨e, he, hboth⟩ := outputMismatches_eq_nil_iff.mp (h _ hmem)
    rw [List.getElem?_eq_getElem hi', Option.some.injEq] at he
    subst he
    exact hboth
  · rintro h ⟨output, i⟩ hmem
    have hget : psbt.txOutputs[i]? = some output := List.mem_zipIdx_iff_getElem?.mp hmem
    obtain ⟨hi, rfl⟩ := List.getElem?_eq_some_iff.mp hget
    exact outputMismatches_eq_nil_iff.mpr
      ⟨_, List.getElem?_eq_getElem (hlen ▸ hi), h i hi (hlen ▸ hi)⟩

/-- A PSBT has no mismatch exactly when it commits to what is expected and the signers are
the expected ones. -/
theorem mismatchesOf_eq_nil_iff {psbt : Psbt} {requiredSignersActual : List String} :
    mismatchesOf lib network expected psbt requiredSignersActual = [] ↔
      (∃ input utxo script, Commits lib network expected psbt input utxo script) ∧
        sortedJoin lib requiredSignersActual = sortedJoin lib expected.requiredSigners := by
  simp only [mismatchesOf, List.append_eq_nil_iff, compareField_eq_nil_iff]
  rw [and_assoc (a := inputMismatches lib network expected psbt = []), outputs_match_iff]
  refine and_congr_left fun _ => ?_
  unfold inputMismatches actualInputValue
  split
  · rename_i input htx
    simp only [List.append_eq_nil_iff, compareField_eq_nil_iff, utxoMismatches_eq_nil_iff,
      scriptMismatches_eq_nil_iff]
    constructor
    · rintro ⟨⟨⟨⟨⟨htxid, hvout⟩, utxo, hutxo, hvalue, hscript⟩, script, hdecoded, hm, hkeys⟩,
        houtputs⟩, hfee⟩
      refine ⟨input, utxo, script, htx, htxid, hvout, hutxo, hvalue, hscript, hdecoded, hm, hkeys,
        houtputs, ?_⟩
      simpa [htx, hutxo] using hfee
    · rintro ⟨input', utxo, script, h⟩
      obtain rfl : input = input' := by simpa [htx] using h.txInputs
      exact ⟨⟨⟨⟨⟨h.txid, h.vout⟩, utxo, h.witnessUtxo, h.value, h.inputScript⟩, script,
        h.witnessScript, h.threshold, h.pubkeys⟩, h.outputs⟩,
        by simpa [htx, h.witnessUtxo] using h.minerFee⟩
  · rename_i hcount
    refine iff_of_false (fun h => ?_) (fun ⟨input, utxo, script, h⟩ => hcount input h.txInputs)
    simp at h

/-- What it takes for a PSBT to be accepted. -/
theorem verifySigningIntent_ok_iff {psbtBase64 : String} {requiredSignersActual : List String} :
    (verifySigningIntent lib expected psbtBase64 requiredSignersActual).ok = true ↔
      ∃ network psbt, networkFor expected.network = .ok network ∧
        lib.fromBase64 psbtBase64 = .ok psbt ∧
        (∃ input utxo script, Commits lib network expected psbt input utxo script) ∧
        sortedJoin lib requiredSignersActual = sortedJoin lib expected.requiredSigners := by
  unfold verifySigningIntent
  cases hnetwork : networkFor expected.network with
  | error e => simp
  | ok network =>
    cases hdecode : lib.fromBase64 psbtBase64 with
    | error e => simp
    | ok psbt =>
      simp only [List.isEmpty_iff, mismatchesOf_eq_nil_iff, Except.ok.injEq, exists_eq_left',
        exists_and_left]

/-- What a signature signs. -/
theorem signEscrowPsbt_ok {psbtBase64 : String} {privateKey : Bytes} {sig : Signature}
    (h : signEscrowPsbt lib psbtBase64 privateKey = .ok sig) :
    ∃ psbt, lib.fromBase64 psbtBase64 = .ok psbt ∧ sig.sighashType = SIGHASH_ALL ∧
      sig.tx = psbt.toUnsignedTx := by
  simp only [signEscrowPsbt, signInput, bind, Except.bind] at h
  split at h
  · cases h
  · rename_i psbt hdecode
    split at h
    · cases h
    · split at h
      · cases h
      · split_ifs at h with hallowed
        cases h
        exact ⟨psbt, hdecode, List.mem_singleton.mp hallowed, rfl⟩

/-- What is signed verified. -/
theorem verifyAndSign_ok {psbtBase64 : String} {requiredSignersActual : List String}
    {privateKey : Bytes} {sig : Signature}
    (h : verifyAndSignEscrowPsbt lib psbtBase64 expected requiredSignersActual privateKey =
      .ok sig) :
    ∃ psbt, lib.fromBase64 psbtBase64 = .ok psbt ∧ sig.sighashType = SIGHASH_ALL ∧
      sig.tx = psbt.toUnsignedTx := by
  simp only [verifyAndSignEscrowPsbt] at h
  split_ifs at h
  cases hsign : signEscrowPsbt lib psbtBase64 privateKey with
  | error e => simp [hsign, Except.mapError] at h
  | ok sig' =>
    rw [hsign] at h
    obtain rfl : sig' = sig := Except.ok.inj h
    exact signEscrowPsbt_ok hsign

end Verified

/-! ## The fields nobody compares -/

/-- The lock time has passed at a height and a time, or every input opts out of it. -/
def UnsignedTx.IsFinal (tx : UnsignedTx) (height time : ℕ) : Prop :=
  tx.locktime = 0 ∨ tx.locktime < (if tx.locktime < 500000000 then height else time) ∨
    ∀ input ∈ tx.txInputs, input.sequence = 0xffffffff

/-- The relative locks of the inputs have passed for outputs of an age, in blocks and in spans
of 512 seconds. -/
def UnsignedTx.RelativelyFinal (tx : UnsignedTx) (blocks spans : ℕ) : Prop :=
  tx.version < 2 ∨ ∀ input ∈ tx.txInputs, input.sequence.testBit 31 = true ∨
    input.sequence % 2 ^ 16 ≤ if input.sequence.testBit 22 then spans else blocks

/-- No lock keeps the transaction out of a block, whatever the chain. -/
def UnsignedTx.ImmediatelyValid (tx : UnsignedTx) : Prop :=
  ∀ height time blocks spans, tx.IsFinal height time ∧ tx.RelativelyFinal blocks spans

/-- No lock is set. -/
def UnsignedTx.Unlocked (tx : UnsignedTx) : Prop :=
  (tx.locktime = 0 ∨ ∀ input ∈ tx.txInputs, input.sequence = 0xffffffff) ∧
    (tx.version < 2 ∨ ∀ input ∈ tx.txInputs, input.sequence.testBit 31 = true ∨
      input.sequence % 2 ^ 16 = 0)

/-- A transaction is valid at once when no lock holds it. -/
theorem UnsignedTx.immediatelyValid_iff (tx : UnsignedTx) :
    tx.ImmediatelyValid ↔ tx.Unlocked := by
  constructor
  · intro h
    obtain ⟨hfinal, hrelative⟩ := h 0 0 0 0
    refine ⟨?_, by simpa [RelativelyFinal] using hrelative⟩
    simpa [IsFinal] using hfinal
  · rintro ⟨hlock, hrelative⟩ height time blocks spans
    refine ⟨hlock.imp_right .inr, hrelative.imp_right fun h input hinput => ?_⟩
    exact (h input hinput).imp_right fun hzero => hzero.le.trans (Nat.zero_le _)

/-- The two PSBTs are one transaction, which is what is expected and valid at once, and
whatever is signed is this transaction with all its inputs and outputs. -/
structure Pinned (lib : BitcoinLib) (expected : ExpectedSigningIntent) (psbt psbt' : Psbt) : Prop
    where
  tx : psbt.toUnsignedTx = psbt'.toUnsignedTx
  commits : ∀ p ∈ [psbt, psbt'], ∃ network input utxo script,
    networkFor expected.network = .ok network ∧ Commits lib network expected p input utxo script
  signs : ∀ base64, lib.fromBase64 base64 = .ok psbt ∨ lib.fromBase64 base64 = .ok psbt' →
    ∀ requiredSigners privateKey sig,
      verifyAndSignEscrowPsbt lib base64 expected requiredSigners privateKey = .ok sig →
      sig.sighashType = SIGHASH_ALL ∧ sig.tx = psbt.toUnsignedTx
  valid : psbt.toUnsignedTx.ImmediatelyValid

/-- The fields the comparison leaves out agree. -/
def SameRest (psbt psbt' : Psbt) : Prop :=
  psbt.version = psbt'.version ∧ psbt.locktime = psbt'.locktime ∧
    psbt.txInputs.map TxInput.sequence = psbt'.txInputs.map TxInput.sequence

/-- Two PSBTs that commit to one expectation differ in the fields left out only. -/
theorem Commits.tx_eq {lib : BitcoinLib} {network : BitcoinNetwork}
    {expected : ExpectedSigningIntent} {psbt psbt' : Psbt} {input input' : TxInput}
    {utxo utxo' : TxOutput} {script script' : P2ms}
    (h : Commits lib network expected psbt input utxo script)
    (h' : Commits lib network expected psbt' input' utxo' script') (hrest : SameRest psbt psbt') :
    psbt.toUnsignedTx = psbt'.toUnsignedTx := by
  obtain ⟨hversion, hlocktime, hsequence⟩ := hrest
  have hhash : input.hash = input'.hash :=
    List.reverse_injective (toHex_injective (h.txid.trans h'.txid.symm))
  have hindex : input.index = input'.index := h.vout.trans h'.vout.symm
  rw [h.txInputs, h'.txInputs] at hsequence
  have hinput : input = input' := by
    rw [TxInput.mk.injEq]
    exact ⟨hhash, hindex, by simpa using hsequence⟩
  have hinputs : psbt.txInputs = psbt'.txInputs := by rw [h.txInputs, h'.txInputs, hinput]
  have houtputs : psbt.txOutputs = psbt'.txOutputs :=
    Pays.leftUnique.forall₂ h.outputs h'.outputs
  rw [UnsignedTx.mk.injEq]
  exact ⟨hversion, hinputs, houtputs, hlocktime⟩

theorem signing_intent_pins_iff {lib : BitcoinLib} {expected : ExpectedSigningIntent}
    {base64 base64' : String} {requiredSigners requiredSigners' : List String} {psbt psbt' : Psbt}
    (hdecode : lib.fromBase64 base64 = .ok psbt) (hdecode' : lib.fromBase64 base64' = .ok psbt')
    (hok : (verifySigningIntent lib expected base64 requiredSigners).ok = true)
    (hok' : (verifySigningIntent lib expected base64' requiredSigners').ok = true) :
    Pinned lib expected psbt psbt' ↔ SameRest psbt psbt' ∧ psbt.toUnsignedTx.Unlocked := by
  obtain ⟨network, psbt₁, hnetwork, hpsbt, ⟨input, utxo, script, hcommits⟩, -⟩ :=
    verifySigningIntent_ok_iff.mp hok
  obtain ⟨network', psbt₂, hnetwork', hpsbt', ⟨input', utxo', script', hcommits'⟩, -⟩ :=
    verifySigningIntent_ok_iff.mp hok'
  obtain rfl : psbt₁ = psbt := Except.ok.inj (hpsbt.symm.trans hdecode)
  obtain rfl : psbt₂ = psbt' := Except.ok.inj (hpsbt'.symm.trans hdecode')
  obtain rfl : network = network' := Except.ok.inj (hnetwork.symm.trans hnetwork')
  constructor
  · intro h
    refine ⟨?_, (UnsignedTx.immediatelyValid_iff _).mp h.valid⟩
    have htx := h.tx
    exact ⟨congrArg UnsignedTx.version htx, congrArg UnsignedTx.locktime htx,
      congrArg (fun tx : UnsignedTx => tx.txInputs.map TxInput.sequence) htx⟩
  · rintro ⟨hrest, hunlocked⟩
    have htx := hcommits.tx_eq hcommits' hrest
    refine ⟨htx, ?_, ?_, (UnsignedTx.immediatelyValid_iff _).mpr hunlocked⟩
    · intro p hp
      rcases List.mem_pair.mp hp with rfl | rfl
      · exact ⟨network, input, utxo, script, hnetwork, hcommits⟩
      · exact ⟨network, input', utxo', script', hnetwork, hcommits'⟩
    · intro b hb requiredSigners privateKey sig hsig
      obtain ⟨p, hp, htype, hsigned⟩ := verifyAndSign_ok hsig
      refine ⟨htype, hsigned.trans ?_⟩
      rcases hb with hb | hb
      · rw [Except.ok.inj (hp.symm.trans hb)]
      · rw [Except.ok.inj (hp.symm.trans hb), htx]

/-- The public keys of the private keys one, two and three. -/
def sampleKeys : List Bytes :=
  [[0x02, 0x79, 0xbe, 0x66, 0x7e, 0xf9, 0xdc, 0xbb, 0xac, 0x55, 0xa0, 0x62, 0x95, 0xce, 0x87,
     0x0b, 0x07, 0x02, 0x9b, 0xfc, 0xdb, 0x2d, 0xce, 0x28, 0xd9, 0x59, 0xf2, 0x81, 0x5b, 0x16,
     0xf8, 0x17, 0x98],
    [0x02, 0xc6, 0x04, 0x7f, 0x94, 0x41, 0xed, 0x7d, 0x6d, 0x30, 0x45, 0x40, 0x6e, 0x95, 0xc0,
     0x7c, 0xd8, 0x5c, 0x77, 0x8e, 0x4b, 0x8c, 0xef, 0x3c, 0xa7, 0xab, 0xac, 0x09, 0xb9, 0x5c,
     0x70, 0x9e, 0xe5],
    [0x02, 0xf9, 0x30, 0x8a, 0x01, 0x92, 0x58, 0xc3, 0x10, 0x49, 0x34, 0x4f, 0x85, 0xf8, 0x9d,
     0x52, 0x29, 0xb5, 0x31, 0xc8, 0x45, 0x83, 0x6f, 0x99, 0xb0, 0x86, 0x01, 0xf1, 0x13, 0xbc,
     0xe0, 0x36, 0xf9]]

/-- The script of two of the three keys. -/
def sampleScript : Bytes :=
  0x52 :: sampleKeys.flatMap (0x21 :: ·) ++ [0x53, 0xae]

/-- The output that funds the sample. -/
def sampleDeposit : TxOutput where
  script :=
    [0x00, 0x20, 0x12, 0xc2, 0xff, 0xbc, 0x6e, 0xc1, 0xcf, 0x5d, 0x74, 0x6d, 0xfb, 0xd4, 0x9b,
     0x10, 0x63, 0x35, 0x62, 0x12, 0xea, 0x55, 0xf4, 0x30, 0x23, 0xff, 0xc0, 0x14, 0x59, 0x34,
     0xaf, 0x20, 0xc5, 0x72]
  value := 100000

/-- The output the sample pays. -/
def samplePayout : TxOutput where
  script :=
    [0x00, 0x14, 0xf6, 0xc6, 0xcb, 0xc2, 0x26, 0x30, 0x90, 0x59, 0x13, 0x30, 0x6e, 0x9f, 0x36,
     0x37, 0xaa, 0xd7, 0x33, 0xcb, 0x4c, 0xb3]
  value := 99000

/-- The hash of the funding transaction. -/
def sampleHash : Bytes :=
  [0x3b, 0xa3, 0xed, 0xfd, 0x7a, 0x7b, 0x12, 0xb2, 0x7a, 0xc7, 0x2c, 0x3e, 0x67, 0x76, 0x8f,
     0x61, 0x7f, 0xc8, 0x1b, 0xc3, 0x88, 0x8a, 0x51, 0x32, 0x3a, 0x9f, 0xb8, 0xaa, 0x4b, 0x1e,
     0x5e, 0x4a]

/-- The PSBT that pays the deposit out, with a sequence and a lock time. -/
def samplePsbt (sequence locktime : ℕ) : Psbt where
  version := 2
  txInputs := [⟨sampleHash, 0, sequence⟩]
  txOutputs := [samplePayout]
  locktime := locktime
  inputs := [⟨some sampleDeposit, some sampleScript, none⟩]

/-- The text of the PSBT with the last sequence and no lock time. -/
def finalText : String :=
  "cHNidP8BAFICAAAAATuj7f16exKyescsPmd2j2F/yBvDiIpRMjqfuKpLHl5KAAAAAAD/////AbiCAQAAAAAAF" ++
    "gAU9sbLwiYwkFkTMG6fNjeq1zPLTLMAAAAAAAEBK6CGAQAAAAAAIgAgEsL/vG7Bz110bfvUmxBjNWIS6lX0MC" ++
    "P/wBRZNK8gxXIBBWlSIQJ5vmZ++dy7rFWgYpXOhwsHApv82y3OKNlZ8oFbFvgXmCECxgR/lEHtfW0wRUBulcB" ++
    "82Fx3jkuM7zynq6wJuVxwnuUhAvkwigGSWMMQSTRPhfidUim1MchFg2+ZsIYB8RO84Db5U64AAA=="

/-- The text of the PSBT that no block below 900000 admits. -/
def lockedText : String :=
  "cHNidP8BAFICAAAAATuj7f16exKyescsPmd2j2F/yBvDiIpRMjqfuKpLHl5KAAAAAAD+////AbiCAQAAAAAAF" ++
    "gAU9sbLwiYwkFkTMG6fNjeq1zPLTLOguw0AAAEBK6CGAQAAAAAAIgAgEsL/vG7Bz110bfvUmxBjNWIS6lX0MC" ++
    "P/wBRZNK8gxXIBBWlSIQJ5vmZ++dy7rFWgYpXOhwsHApv82y3OKNlZ8oFbFvgXmCECxgR/lEHtfW0wRUBulcB" ++
    "82Fx3jkuM7zynq6wJuVxwnuUhAvkwigGSWMMQSTRPhfidUim1MchFg2+ZsIYB8RO84Db5U64AAA=="

/-- The address of the deposit. -/
def depositAddress : String := "bc1qztp0l0rwc8846ardl02fkyrrx43p96j47scz8l7qz3vnfteqc4eqtfqwcm"

/-- The address of the payout. -/
def payoutAddress : String := "bc1q7mrvhs3xxzg9jyesd60nvda26ueukn9nc404xk"

/-- What the library answers about these texts, addresses and scripts. -/
def sampleLib : BitcoinLib where
  fromBase64 text :=
    if text = finalText then .ok (samplePsbt 0xffffffff 0)
    else if text = lockedText then .ok (samplePsbt 0xfffffffe 900000)
    else .error "Invalid Magic Number"
  toOutputScript network address :=
    if network = .mainnet ∧ address = depositAddress then .ok sampleDeposit.script
    else if network = .mainnet ∧ address = payoutAddress then .ok samplePayout.script
    else .error (address ++ " has no matching Script")
  fromOutputScript network script :=
    if network = .mainnet ∧ script = sampleDeposit.script then some depositAddress
    else if network = .mainnet ∧ script = samplePayout.script then some payoutAddress
    else none
  p2ms script :=
    if script = sampleScript then .ok ⟨2, sampleKeys⟩ else .error "Output is invalid"
  p2ms_pubkeys script decoded h := by
    split_ifs at h
    cases h
    exact ⟨by decide, by decide⟩
  fromPrivateKey privateKey :=
    if privateKey.length = 32 then .ok () else .error "Private key not in range [1, n)"
  scriptCode psbt index privateKey :=
    if index = 0 ∧ privateKey = List.replicate 31 0 ++ [1] then .ok (sampleScript, 100000)
    else .error "Can not sign for this input"
  toLowerCase := lowerHex
  toLowerCase_hex _ _ := rfl

/-- What the wallet of the sample expects. -/
def sampleIntent : ExpectedSigningIntent where
  operation := .RELEASE
  network := "mainnet"
  escrowId := "escrow"
  input := ⟨"4a5e1e4baab89f3a32518a88c31bc87f618f76673e2cc77ab2127b7afdeda33b", 0, 100000,
    depositAddress⟩
  outputs := [⟨payoutAddress, 99000⟩]
  minerFee := 1000
  threshold := 2
  participantPubkeys := sampleKeys.map toHex
  participantPubkeys_hex key hkey := by
    obtain ⟨bytes, -, rfl⟩ := List.mem_map.mp hkey
    exact isHex_toHex bytes
  requiredSigners := ["buyer", "seller"]

theorem sampleHash_txid : toHex sampleHash.reverse = sampleIntent.input.txid := by
  decide +kernel

/-- The transactions of the sample are what the wallet expects. -/
theorem sample_commits (sequence locktime : ℕ) :
    ∃ input utxo script,
      Commits sampleLib .mainnet sampleIntent (samplePsbt sequence locktime) input utxo script := by
  refine ⟨_, sampleDeposit, ⟨2, sampleKeys⟩, rfl, sampleHash_txid, rfl, rfl, rfl, rfl,
    ⟨sampleScript, rfl, rfl⟩, rfl, ?_, ?_, rfl⟩
  · rw [sampleIntent, List.map_map]
    refine List.Perm.of_eq (List.map_congr_left fun key _ => (lowerHex_toHex key).symm)
  · exact .cons ⟨by decide +kernel, rfl⟩ .nil

theorem sample_accepted {text : String} {sequence locktime : ℕ}
    (h : sampleLib.fromBase64 text = .ok (samplePsbt sequence locktime)) :
    (verifySigningIntent sampleLib sampleIntent text ["buyer", "seller"]).ok = true :=
  verifySigningIntent_ok_iff.mpr ⟨.mainnet, _, rfl, h, sample_commits sequence locktime, rfl⟩

theorem decode_finalText : sampleLib.fromBase64 finalText = .ok (samplePsbt 0xffffffff 0) := by
  simp only [sampleLib, if_true]

theorem decode_lockedText :
    sampleLib.fromBase64 lockedText = .ok (samplePsbt 0xfffffffe 900000) := by
  have hne : lockedText ≠ finalText := by decide +kernel
  simp only [sampleLib, hne, if_false, if_true]

theorem signing_intent_pins_final :
    (verifySigningIntent sampleLib sampleIntent finalText ["buyer", "seller"]).ok = true ∧
      (Pinned sampleLib sampleIntent (samplePsbt 0xffffffff 0) (samplePsbt 0xffffffff 0) ↔
        SameRest (samplePsbt 0xffffffff 0) (samplePsbt 0xffffffff 0) ∧
          (samplePsbt 0xffffffff 0).toUnsignedTx.Unlocked) :=
  ⟨sample_accepted decode_finalText, signing_intent_pins_iff decode_finalText decode_finalText
    (sample_accepted decode_finalText) (sample_accepted decode_finalText)⟩

/-- For one expectation the wallet signs a transaction that is valid at once and one that no
block below 900000 admits. -/
theorem locked_transaction_accepted :
    ¬ ∀ (lib : BitcoinLib) (expected : ExpectedSigningIntent) (base64 base64' : String)
      (requiredSigners requiredSigners' : List String) (psbt psbt' : Psbt),
      lib.fromBase64 base64 = .ok psbt → lib.fromBase64 base64' = .ok psbt' →
      (verifySigningIntent lib expected base64 requiredSigners).ok = true →
      (verifySigningIntent lib expected base64' requiredSigners').ok = true →
      Pinned lib expected psbt psbt' := by
  intro h
  have hpinned := h sampleLib sampleIntent _ _ _ _ _ _ decode_finalText decode_lockedText
    (sample_accepted decode_finalText) (sample_accepted decode_lockedText)
  exact absurd (congrArg UnsignedTx.locktime hpinned.tx) (by decide)

end Sails.Wallet
