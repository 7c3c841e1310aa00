import Mathlib.Data.List.Count
import Mathlib.Data.List.Sort

/-!
# Deposit scripts

The two client-held rails lock the collateral under a script of three keys. MULTISIG
builds a 2-of-3 `p2ms` inside a P2WSH address (`multisig.provider.ts`), LIGHTNING_HODL a
taproot tree of four leaves (`lightning-hodl.provider.ts`) : three pairs and a
time-locked leaf of the buyer alone.

The buyer's and seller's keys are submitted as hex strings. `pubkeyHexPattern` is the
check they pass. Nothing compares the submitted keys with each other.

A spend is modelled by the roles that sign. The holder of a private key `d` also holds
`n - d`, the private key of the negated point, so the signature of a role verifies under
a key exactly when the key has the x-coordinate of the role's own public key.
`multisig_two_roles` and `leaf_two_roles` say which spends a single role can make.
-/

namespace Sails

/-- The three parties of a deposit script. -/
inductive Role
  | buyer
  | seller
  | arbiter
  deriving DecidableEq, Repr

/-! ## Keys -/

/-- The content of a buffer. -/
abbrev Bytes := List UInt8

/-- A hex string. -/
abbrev Hex := List Char

/-- The value of a hex digit, in either case. -/
def hexDigit (c : Char) : Option ℕ :=
  if '0' ≤ c ∧ c ≤ '9' then some (c.toNat - 48)
  else if 'a' ≤ c ∧ c ≤ 'f' then some (c.toNat - 87)
  else if 'A' ≤ c ∧ c ≤ 'F' then some (c.toNat - 55)
  else none

/-- `PUBKEY_HEX_PATTERN` : `0`, then `2` or `3`, then 64 hex digits. -/
def pubkeyHexPattern : Hex → Bool
  | '0' :: c :: rest =>
    (c = '2' || c = '3') && rest.length = 64 && rest.all fun d => (hexDigit d).isSome
  | _ => false

/-- `Buffer.from(hex, 'hex')` : bytes up to the first pair that is not two hex digits. -/
def bufferFromHex : Hex → Bytes
  | a :: b :: rest =>
    match hexDigit a, hexDigit b with
    | some x, some y => UInt8.ofNat (16 * x + y) :: bufferFromHex rest
    | _, _ => []
  | _ => []

/-- A key `submitParticipantKey` accepts. -/
structure SubmittedKey where
  hex : Hex
  wellFormed : pubkeyHexPattern hex = true
  deriving DecidableEq

/-- The bytes of a submitted key. -/
def SubmittedKey.bytes (k : SubmittedKey) : Bytes :=
  bufferFromHex k.hex

/-- `toXOnly` : the key without its parity byte. -/
def toXOnly (k : Bytes) : Bytes :=
  k.drop 1

/-! ## MULTISIG -/

/-- The order of `Buffer.compare`. -/
def bufferLe : Bytes → Bytes → Bool
  | [], _ => true
  | _ :: _, [] => false
  | a :: l, b :: m => if a = b then bufferLe l m else a < b

/-- `bitcoin.payments.p2ms` : `m` signatures under the listed keys. -/
structure P2ms where
  m : ℕ
  pubkeys : List Bytes
  deriving DecidableEq

/-- A P2WSH address, which commits to its witness script. -/
structure P2wsh where
  witnessScript : P2ms
  deriving DecidableEq

/-- `MultisigParties`. -/
structure MultisigParties where
  buyerPubkey : Bytes
  sellerPubkey : Bytes
  arbiterPubkey : Bytes
  deriving DecidableEq

/-- The keys in the order of the record. -/
def MultisigParties.keys (p : MultisigParties) : List Bytes :=
  [p.buyerPubkey, p.sellerPubkey, p.arbiterPubkey]

/-- `MultisigProvider.buildScript` : 2 of the three keys, sorted. -/
def MultisigParties.buildScript (p : MultisigParties) : P2wsh :=
  ⟨⟨2, p.keys.insertionSort fun a b => bufferLe a b = true⟩⟩

/-- The matching rule of `OP_CHECKMULTISIG` : every signature verifies under a key, in
the order of the keys, and no key is used twice. -/
def checkMultisig {Sig : Type} (verify : Bytes → Sig → Bool) : List Bytes → List Sig → Bool
  | _, [] => true
  | [], _ :: _ => false
  | k :: ks, s :: ss =>
    if verify k s then checkMultisig verify ks ss else checkMultisig verify ks (s :: ss)

/-- The matched keys are a sublist of the script's keys. -/
theorem checkMultisig_sublist {Sig : Type} {verify : Bytes → Sig → Bool} :
    ∀ {ks : List Bytes} {ss : List Sig}, checkMultisig verify ks ss = true →
      ∃ ks', List.Sublist ks' ks ∧ List.Forall₂ (fun k s => verify k s = true) ks' ss
  | _, [], _ => ⟨[], List.nil_sublist _, List.Forall₂.nil⟩
  | k :: ks, s :: ss, h => by
    simp only [checkMultisig] at h
    split at h
    · rename_i hk
      obtain ⟨ks', hsub, hall⟩ := checkMultisig_sublist h
      exact ⟨k :: ks', hsub.cons_cons k, List.Forall₂.cons hk hall⟩
    · obtain ⟨ks', hsub, hall⟩ := checkMultisig_sublist h
      exact ⟨ks', hsub.cons k, hall⟩

/-! ## LIGHTNING_HODL -/

/-- A leaf of the taproot tree : every listed key signs, and a `csvBlocks` leaf needs the
output to be that many blocks old. -/
structure Leaf where
  pubkeys : List Bytes
  csvBlocks : Option ℕ
  deriving DecidableEq

/-- The x-only keys `LightningHodlProvider.buildScript` is given. -/
structure ArkParties where
  buyerPk : Bytes
  sellerPk : Bytes
  arbiterPk : Bytes
  deriving DecidableEq

namespace ArkParties

variable (p : ArkParties)

/-- The keys in the order of the record. -/
def keys : List Bytes :=
  [p.buyerPk, p.sellerPk, p.arbiterPk]

/-- Both parties, without the arbiter. -/
def buyerSeller : Leaf :=
  ⟨[p.buyerPk, p.sellerPk], none⟩

/-- A ruling for the buyer. -/
def buyerArbiter : Leaf :=
  ⟨[p.buyerPk, p.arbiterPk], none⟩

/-- A ruling for the seller. -/
def sellerArbiter : Leaf :=
  ⟨[p.sellerPk, p.arbiterPk], none⟩

/-- The unilateral exit of the buyer, after 144 blocks. -/
def buyerExit : Leaf :=
  ⟨[p.buyerPk], some 144⟩

/-- `LightningHodlProvider.buildScript` : the leaves of the tree. -/
def buildScript : List Leaf :=
  [p.buyerSeller, p.buyerArbiter, p.sellerArbiter, p.buyerExit]

end ArkParties

/-! ## Spending -/

/-- The signature of `r` verifies under `k`. Each role knows its own private key only, and
with it the one of the negated point, whose key differs in the parity byte. -/
def verifies (pubOf : Role → Bytes) (k : Bytes) (r : Role) : Bool :=
  decide (toXOnly (pubOf r) = toXOnly k)

/-- The signatures of the roles `w` satisfy the `p2ms` script. -/
def P2ms.satisfied (s : P2ms) (pubOf : Role → Bytes) (w : List Role) : Bool :=
  decide (w.length = s.m) && checkMultisig (verifies pubOf) s.pubkeys w

/-- The signatures of the roles `w` satisfy the leaf on an output `age` blocks old. -/
def Leaf.satisfied (l : Leaf) (pubOf : Role → Bytes) (age : ℕ) (w : List Role) : Bool :=
  decide (l.csvBlocks.getD 0 ≤ age) && decide (l.pubkeys = w.map pubOf)

theorem P2ms.satisfied_iff {s : P2ms} {pubOf : Role → Bytes} {w : List Role} :
    s.satisfied pubOf w = true ↔
      w.length = s.m ∧ checkMultisig (verifies pubOf) s.pubkeys w = true := by
  simp [P2ms.satisfied]

theorem Leaf.satisfied_iff {l : Leaf} {pubOf : Role → Bytes} {age : ℕ} {w : List Role} :
    l.satisfied pubOf age w = true ↔ l.csvBlocks.getD 0 ≤ age ∧ l.pubkeys = w.map pubOf := by
  simp [Leaf.satisfied]

/-- Two different roles sign. -/
def TwoRoles (w : List Role) : Prop :=
  ∃ r ∈ w, ∃ r' ∈ w, r ≠ r'

instance (w : List Role) : Decidable (TwoRoles w) :=
  inferInstanceAs (Decidable (∃ r ∈ w, ∃ r' ∈ w, r ≠ r'))

theorem eq_of_not_twoRoles {w : List Role} (h : ¬ TwoRoles w) {r r' : Role} (hr : r ∈ w)
    (hr' : r' ∈ w) : r = r' := by
  by_contra hne
  exact h ⟨r, hr, r', hr', hne⟩

/-- A pair of signatures by one role is a pair of equal keys. -/
theorem twoRoles_or_eq {pubOf : Role → Bytes} {k₁ k₂ : Bytes} {w : List Role}
    (h : [k₁, k₂] = w.map pubOf) :
    TwoRoles w ∨ ∃ r ∈ w, pubOf r = k₁ ∧ pubOf r = k₂ := by
  by_cases htwo : TwoRoles w
  · exact Or.inl htwo
  · match w, h with
    | [r, r'], h =>
      have hr : r = r' := eq_of_not_twoRoles htwo (by simp) (by simp)
      subst hr
      simp only [List.map_cons, List.map_nil, List.cons.injEq, and_true] at h
      exact Or.inr ⟨r, by simp, h.1.symm, h.2.symm⟩

/-- A spend of the MULTISIG deposit is signed by two roles, or the x-coordinate of its one
signer's key stands twice in the script. -/
theorem multisig_two_roles (p : MultisigParties) (pubOf : Role → Bytes) {w : List Role}
    (h : p.buildScript.witnessScript.satisfied pubOf w = true) :
    TwoRoles w ∨ ∃ r ∈ w, 2 ≤ (p.keys.map toXOnly).count (toXOnly (pubOf r)) := by
  obtain ⟨hlen, hcheck⟩ := P2ms.satisfied_iff.mp h
  obtain ⟨ks, hsub, hall⟩ := checkMultisig_sublist hcheck
  replace hlen : w.length = 2 := hlen
  have hmap : ks.map toXOnly = w.map (toXOnly ∘ pubOf) := by
    clear h hlen hcheck hsub
    induction hall with
    | nil => rfl
    | cons hk _ ih => rw [List.map_cons, List.map_cons, ih, ← of_decide_eq_true hk,
        Function.comp_apply]
  obtain ⟨k₁, k₂, rfl⟩ : ∃ k₁ k₂, ks = [k₁, k₂] := by
    rw [← List.length_eq_two, ← List.length_map toXOnly, hmap, List.length_map, hlen]
  rcases twoRoles_or_eq hmap with htwo | ⟨r, hr, h₁, h₂⟩
  · exact Or.inl htwo
  · refine Or.inr ⟨r, hr, ?_⟩
    have hperm : p.buildScript.witnessScript.pubkeys.Perm p.keys :=
      List.perm_insertionSort _ _
    have hcount := (hsub.map toXOnly).count_le (toXOnly (pubOf r))
    rw [(hperm.map toXOnly).count_eq] at hcount
    simpa [← h₁, ← h₂] using hcount

/-- A spend of a leaf is signed by two roles, or its one signer's key stands twice among
the keys, or it is the buyer's exit after 144 blocks. -/
theorem leaf_two_roles (p : ArkParties) (pubOf : Role → Bytes) {l : Leaf}
    (hl : l ∈ p.buildScript) {age : ℕ} {w : List Role} (h : l.satisfied pubOf age w = true) :
    TwoRoles w ∨ (∃ r ∈ w, 2 ≤ p.keys.count (pubOf r)) ∨
      l = p.buyerExit ∧ 144 ≤ age ∧ ∃ r, w = [r] ∧ pubOf r = p.buyerPk := by
  obtain ⟨hage, hkeys⟩ := Leaf.satisfied_iff.mp h
  simp only [ArkParties.buildScript, List.mem_cons, List.not_mem_nil, or_false] at hl
  rcases hl with rfl | rfl | rfl | rfl
  · rcases twoRoles_or_eq hkeys with htwo | ⟨r, hr, h₁, h₂⟩
    · exact Or.inl htwo
    · exact Or.inr (Or.inl ⟨r, hr, by simp [ArkParties.keys, ← h₁, ← h₂, List.count_cons]⟩)
  · rcases twoRoles_or_eq hkeys with htwo | ⟨r, hr, h₁, h₂⟩
    · exact Or.inl htwo
    · exact Or.inr (Or.inl ⟨r, hr, by simp [ArkParties.keys, ← h₁, ← h₂, List.count_cons]⟩)
  · rcases twoRoles_or_eq hkeys with htwo | ⟨r, hr, h₁, h₂⟩
    · exact Or.inl htwo
    · exact Or.inr (Or.inl ⟨r, hr, by simp [ArkParties.keys, ← h₁, ← h₂, List.count_cons]⟩)
  · refine Or.inr (Or.inr ⟨rfl, by simpa [ArkParties.buyerExit] using hage, ?_⟩)
    obtain ⟨r, rfl, hr⟩ := List.map_eq_singleton_iff.mp hkeys.symm
    exact ⟨r, rfl, hr⟩

/-- For every submitted buyer and seller key and every arbiter key, a spend of either
deposit is signed by two roles, or the x-coordinate of its one signer's key stands at two
of the three positions, or it is the LIGHTNING_HODL exit, which needs the buyer's
signature and 144 blocks and nothing else. -/
theorem deposit_spend_roles (buyer seller : SubmittedKey) (arbiter : Bytes)
    (pubOf : Role → Bytes) :
    let p : MultisigParties := ⟨buyer.bytes, seller.bytes, arbiter⟩
    let a : ArkParties := ⟨toXOnly buyer.bytes, toXOnly seller.bytes, toXOnly arbiter⟩
    (∀ w, p.buildScript.witnessScript.satisfied pubOf w = true →
      TwoRoles w ∨ ∃ r ∈ w, 2 ≤ a.keys.count (toXOnly (pubOf r))) ∧
    (∀ l ∈ a.buildScript, ∀ age w, l.satisfied (toXOnly ∘ pubOf) age w = true →
      TwoRoles w ∨ (∃ r ∈ w, 2 ≤ a.keys.count (toXOnly (pubOf r))) ∨ l = a.buyerExit) ∧
    ∀ age w, a.buyerExit.satisfied (toXOnly ∘ pubOf) age w = true ↔
      144 ≤ age ∧ ∃ r, w = [r] ∧ toXOnly (pubOf r) = toXOnly buyer.bytes := by
  intro p a
  refine ⟨fun w h => multisig_two_roles p pubOf h, fun l hl age w h => ?_, fun age w => ?_⟩
  · rcases leaf_two_roles a (toXOnly ∘ pubOf) hl h with h | h | h
    · exact Or.inl h
    · exact Or.inr (Or.inl h)
    · exact Or.inr (Or.inr h.1)
  · rw [Leaf.satisfied_iff]
    refine and_congr_right fun _ => ⟨fun h => ?_, ?_⟩
    · obtain ⟨r, rfl, hr⟩ := List.map_eq_singleton_iff.mp h.symm
      exact ⟨r, rfl, hr⟩
    · rintro ⟨r, rfl, hr⟩
      simp [a, ArkParties.buyerExit, hr]

/-- The public key of the private key 1. -/
def keyOne : SubmittedKey where
  hex := '0' :: '2' ::
    Nat.toDigits 16 0x79be667ef9dcbbac55a06295ce870b07029bfcdb2dce28d959f2815b16f81798
  wellFormed := by decide +kernel

/-- The public key of the private key `n - 1`, the negated point of `keyOne`. -/
def keyMinusOne : SubmittedKey where
  hex := '0' :: '3' ::
    Nat.toDigits 16 0x79be667ef9dcbbac55a06295ce870b07029bfcdb2dce28d959f2815b16f81798
  wellFormed := by decide +kernel

/-- The public key of the private key 2. -/
def keyTwo : SubmittedKey where
  hex := '0' :: '2' ::
    Nat.toDigits 16 0xc6047f9441ed7d6d3045406e95c07cd85c778e4b8cef3ca7abac09b95c709ee5
  wellFormed := by decide +kernel

/-- The public key of the private key 3. -/
def keyThree : SubmittedKey where
  hex := '0' :: '2' ::
    Nat.toDigits 16 0xf9308a019258c31049344f85f89d5229b531c845836f99b08601f113bce036f9
  wellFormed := by decide +kernel

/-- The roles' own keys : those of 1, 2 and 3. -/
def ownKey : Role → Bytes
  | .buyer => keyOne.bytes
  | .seller => keyTwo.bytes
  | .arbiter => keyThree.bytes

/-- Three deposits one role spends alone : with three different keys the buyer takes a
LIGHTNING_HODL deposit after 144 blocks, and when the seller submits the buyer's key, or
the key of its negated point, the buyer takes a MULTISIG deposit at once. -/
theorem single_role_spends :
    let a : ArkParties := ⟨toXOnly keyOne.bytes, toXOnly keyTwo.bytes, toXOnly keyThree.bytes⟩
    (a.keys.Nodup ∧ ∃ l ∈ a.buildScript, ∃ age w,
      l.satisfied (toXOnly ∘ ownKey) age w = true ∧ ¬ TwoRoles w) ∧
    ∀ seller ∈ [keyOne, keyMinusOne],
      let p : MultisigParties := ⟨keyOne.bytes, seller.bytes, keyThree.bytes⟩
      ∃ w, p.buildScript.witnessScript.satisfied ownKey w = true ∧ ¬ TwoRoles w := by
  refine ⟨⟨by decide +kernel, _, List.mem_cons_of_mem _ (List.mem_cons_of_mem _
    (List.mem_cons_of_mem _ List.mem_cons_self)), 144, [.buyer], by decide +kernel, by decide⟩,
    fun seller hseller => ⟨[.buyer, .buyer], ?_, by decide⟩⟩
  rcases List.mem_pair.mp hseller with rfl | rfl
  · decide +kernel
  · decide +kernel

end Sails
