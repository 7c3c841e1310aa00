import Std.Data.String.ToInt
import SailsProtocol.Order.Sorting
import SailsProtocol.Settlement.Dispatch
import SailsProtocol.Text.Separators

/-!
# Exact shares and the committed text

`canonicalizeOutcomeContent` of `economic-outcome.ts` writes a content, its allocations
sorted by `localeCompare`, as the text that is committed. `OutcomeText` is a content as the
interface has it, with the text of its total.

The shares of a content are exact and do not depend on the order of the allocations
(`allocateExactUnitsOverTotal_spec`), the content of a ruling divides a pool as
`buildUnsignedSplit` does (`ruling_shares`), and the committed texts of two contents are
equal exactly when the contents agree up to that order (`canonicalize_eq_iff`).
-/

namespace Sails.Settlement

/-! ## Contents as texts -/

/-- The interface `ArbitrationOutcomeContent`. -/
structure OutcomeText where
  ruling : ArbitrationRuling
  totalUnits : String
  asset : String
  allocations : List AllocationInput
  remainderBeneficiary : String
  deriving DecidableEq, Repr

/-- What the canonical text is refused for. -/
inductive OutcomeTextError where
  /-- `totalUnits must be a non-negative integer string`. -/
  | totalUnits
  | content (e : ContentError)
  deriving DecidableEq, Repr

/-- `/^\d+$/`. -/
def isDigits (s : String) : Bool :=
  !s.isEmpty && s.toList.all Char.isDigit

/-- `BigInt` of a text of digits. -/
def bigIntOf (s : String) : ℕ :=
  s.toList.foldl (fun n c => 10 * n + (c.toNat - '0'.toNat)) 0

namespace OutcomeText

/-- The content with its total as a number. -/
def content (c : OutcomeText) : ArbitrationOutcomeContent :=
  ⟨c.ruling, bigIntOf c.totalUnits, c.asset, c.allocations, c.remainderBeneficiary⟩

/-- `assertWellFormedOutcomeContent`. -/
def assertWellFormed (c : OutcomeText) : Except OutcomeTextError Unit :=
  if !isDigits c.totalUnits then .error .totalUnits
  else (assertWellFormedOutcomeContent c.content).mapError .content

/-- `allocateExactUnitsOverTotal`. -/
def allocate (c : OutcomeText) (total : ℤ) : Except OutcomeTextError (List Allotment) :=
  if !isDigits c.totalUnits then .error .totalUnits
  else (allocateExactUnitsOverTotal c.content total).mapError .content

/-- A content the assertion accepts. -/
def WellFormed (c : OutcomeText) : Prop :=
  c.assertWellFormed = .ok ()

theorem wellFormed_iff {c : OutcomeText} :
    c.WellFormed ↔ isDigits c.totalUnits = true ∧ c.content.WellFormed := by
  rw [WellFormed, assertWellFormed, ← assertWellFormedOutcomeContent_ok_iff]
  cases isDigits c.totalUnits with
  | false => simp
  | true =>
    cases assertWellFormedOutcomeContent c.content <;> simp [Except.mapError]

theorem allocate_eq {c : OutcomeText} (h : c.WellFormed) (total : ℤ) :
    c.allocate total = .ok (c.content.allotments total) := by
  obtain ⟨hdigits, hwf⟩ := wellFormed_iff.mp h
  rw [allocate, hdigits, allocateExactUnitsOverTotal_eq hwf]
  rfl

/-- The ids of a content. -/
def ids (c : OutcomeText) : List String :=
  c.allocations.map AllocationInput.beneficiary

/-- The same content, up to the order of the allocations. -/
structure Agrees (c c' : OutcomeText) : Prop where
  ruling : c.ruling = c'.ruling
  totalUnits : c.totalUnits = c'.totalUnits
  asset : c.asset = c'.asset
  allocations : c.allocations.Perm c'.allocations
  remainderBeneficiary : c.remainderBeneficiary = c'.remainderBeneficiary

/-- A text that agrees with a well formed one is well formed. -/
theorem Agrees.wellFormed {c c' : OutcomeText} (hagrees : c.Agrees c') (h : c.WellFormed) :
    c'.WellFormed := by
  obtain ⟨hdigits, hwf⟩ := wellFormed_iff.mp h
  have hids : c.content.beneficiaries.Perm c'.content.beneficiaries := hagrees.allocations.map _
  refine wellFormed_iff.mpr ⟨hagrees.totalUnits ▸ hdigits, ⟨fun hnil => ?_, ?_, fun a ha => ?_, ?_,
    ?_⟩⟩
  · have hempty : c'.allocations = [] := hnil
    exact hwf.nonempty (hagrees.allocations.trans (by rw [hempty])).eq_nil
  · exact hids.nodup_iff.mp hwf.distinct
  · exact hwf.range a (hagrees.allocations.mem_iff.mpr ha)
  · exact (hagrees.allocations.map AllocationInput.basisPoints).sum_eq.symm.trans hwf.sum
  · have hrem : c.content.remainderBeneficiary = c'.content.remainderBeneficiary :=
      hagrees.remainderBeneficiary
    rw [← hrem]
    exact hids.mem_iff.mp hwf.remainder

end OutcomeText

/-! ## Exact shares -/

namespace ArbitrationOutcomeContent

variable {content content' : ArbitrationOutcomeContent} {total : ℤ}

/-- Contents that agree up to the order of the allocations have the same shares. -/
theorem perm_of_perm (hperm : content.allocations.Perm content'.allocations)
    (hrem : content.remainderBeneficiary = content'.remainderBeneficiary) :
    (content.allotments total).Perm (content'.allotments total) := by
  have hothers : content.others.Perm content'.others := by
    unfold others
    rw [hrem]
    exact hperm.filter _
  have hfloors : (content.floors total).sum = (content'.floors total).sum :=
    (hothers.map _).sum_eq
  unfold allotments
  rw [hrem, hfloors]
  exact (hothers.map _).append_right _

/-- The amount of every other beneficiary, rounded down. -/
theorem mem_allotments_of_ne (ht : 0 ≤ total) (h : content.WellFormed) {a : AllocationInput}
    (ha : a ∈ content.allocations) (hne : a.beneficiary ≠ content.remainderBeneficiary) :
    ⟨a.beneficiary, total * a.basisPoints / 10000⟩ ∈ content.allotments total := by
  have hbp := (h.range a ha).1
  have hmul : 0 ≤ total * a.basisPoints := mul_nonneg ht (by omega)
  refine List.mem_append_left _ (List.mem_map.mpr ⟨a, ?_, ?_⟩)
  · exact List.mem_filter.mpr ⟨ha, by simpa using hne⟩
  · rw [Int.tdiv_eq_ediv_of_nonneg hmul]

/-- The floors of shares miss less than one unit each. -/
theorem floors_bounds (ht : 0 ≤ total) : ∀ l : List AllocationInput,
    (∀ a ∈ l, 0 ≤ a.basisPoints) →
      total * (l.map AllocationInput.basisPoints).sum - 9999 * l.length ≤
        10000 * (l.map fun a => (total * a.basisPoints).tdiv 10000).sum
  | [], _ => by simp
  | a :: l, h => by
    have hmul : 0 ≤ total * a.basisPoints := mul_nonneg ht (h a (by simp))
    have hhead : total * a.basisPoints - 9999 ≤ 10000 * (total * a.basisPoints).tdiv 10000 := by
      rw [Int.tdiv_eq_ediv_of_nonneg hmul]
      omega
    have htail := floors_bounds ht l fun b hb => h b (by simp [hb])
    simp only [List.map_cons, List.sum_cons, mul_add, List.length_cons, Nat.cast_add,
      Nat.cast_one]
    linarith

/-- The remainder beneficiary gets its own floor and less than one unit for each share more. -/
theorem remainder_bounds (ht : 0 ≤ total) (h : content.WellFormed) :
    ∃ a ∈ content.allocations, a.beneficiary = content.remainderBeneficiary ∧
      ∃ units, ⟨content.remainderBeneficiary, units⟩ ∈ content.allotments total ∧
        total * a.basisPoints / 10000 ≤ units ∧
        units < total * a.basisPoints / 10000 + content.allocations.length := by
  obtain ⟨a, hrem, hperm⟩ := perm_others h
  have ha : a ∈ content.allocations := hperm.mem_iff.mpr List.mem_cons_self
  have hnonneg : ∀ b ∈ content.others, 0 ≤ b.basisPoints := fun b hb => by
    have := (h.range b (List.mem_of_mem_filter hb)).1
    omega
  have hsum : a.basisPoints + (content.others.map AllocationInput.basisPoints).sum = 10000 := by
    rw [← h.sum, basisPointSum, (hperm.map _).sum_eq, List.map_cons, List.sum_cons]
  have hlen : content.allocations.length = content.others.length + 1 := by
    rw [hperm.length_eq, List.length_cons]
  have hupper : 10000 * (content.floors total).sum ≤
      total * (content.others.map AllocationInput.basisPoints).sum :=
    floors_mul_le ht content.others hnonneg
  have hlower : total * (content.others.map AllocationInput.basisPoints).sum -
      9999 * content.others.length ≤ 10000 * (content.floors total).sum :=
    floors_bounds ht content.others hnonneg
  have hsplit : total * (content.others.map AllocationInput.basisPoints).sum =
      10000 * total - total * a.basisPoints := by
    rw [← hsum]
    ring
  rw [hsplit] at hupper hlower
  refine ⟨a, ha, hrem, total - (content.floors total).sum,
    List.mem_append_right _ (List.mem_singleton.mpr rfl), ?_, ?_⟩
  · omega
  · rw [hlen]
    push_cast
    omega

end ArbitrationOutcomeContent

/-! ## The content of a ruling -/

/-- What a ruling needs of its basis points. -/
def LegalBps (ruling : ArbitrationRuling) (buyerBps : Option ℤ) : Prop :=
  ruling = .SPLIT → ∃ bps, buyerBps = some bps ∧ 1 ≤ bps ∧ bps ≤ 9999

/-- The shares of a ruling over a pool, by the arithmetic of `buildUnsignedSplit` : the buyer's
value and what is left for the seller. -/
def rulingShares (ruling : ArbitrationRuling) (buyerId sellerId : String) (buyerBps : Option ℤ)
    (pool : ℤ) : List Allotment :=
  match ruling with
  | .RELEASE => [⟨buyerId, pool⟩]
  | .REFUND => [⟨sellerId, pool⟩]
  | .SPLIT =>
    let buyerValue := (pool * buyerBps.getD 0).tdiv 10000
    [⟨buyerId, buyerValue⟩, ⟨sellerId, pool - buyerValue⟩]

/-- The outcome of a ruling is well formed. -/
theorem buildRulingOutcomeContent_spec {ruling : ArbitrationRuling} {buyerBps : Option ℤ}
    (totalUnits : ℕ) (asset : String) {buyerId sellerId : String} (hne : buyerId ≠ sellerId)
    (hbps : LegalBps ruling buyerBps) :
    ∃ content, buildRulingOutcomeContent ruling totalUnits asset buyerId sellerId buyerBps =
        .ok content ∧ content.WellFormed ∧
      ∀ pool, content.allotments pool = rulingShares ruling buyerId sellerId buyerBps pool := by
  cases ruling with
  | RELEASE =>
    refine ⟨_, rfl, ⟨by simp, ?_, ?_, ?_, ?_⟩, fun pool => ?_⟩ <;>
      simp [ArbitrationOutcomeContent.beneficiaries, ArbitrationOutcomeContent.basisPointSum,
        ArbitrationOutcomeContent.allotments, ArbitrationOutcomeContent.others,
        ArbitrationOutcomeContent.floors, rulingShares]
  | REFUND =>
    refine ⟨_, rfl, ⟨by simp, ?_, ?_, ?_, ?_⟩, fun pool => ?_⟩ <;>
      simp [ArbitrationOutcomeContent.beneficiaries, ArbitrationOutcomeContent.basisPointSum,
        ArbitrationOutcomeContent.allotments, ArbitrationOutcomeContent.others,
        ArbitrationOutcomeContent.floors, rulingShares]
  | SPLIT =>
    obtain ⟨bps, rfl, hlow, hhigh⟩ := hbps rfl
    have hrange : ¬ (bps < 1 ∨ bps > 9999) := by omega
    refine ⟨⟨.SPLIT, totalUnits, asset, [⟨buyerId, bps⟩, ⟨sellerId, 10000 - bps⟩], sellerId⟩, ?_,
      ⟨by simp, ?_, ?_, ?_, ?_⟩, fun pool => ?_⟩
    · simp only [buildRulingOutcomeContent, if_neg hrange]
    · simpa [ArbitrationOutcomeContent.beneficiaries] using hne
    · intro a ha
      simp only [List.mem_cons, List.not_mem_nil, or_false] at ha
      rcases ha with rfl | rfl <;> dsimp only <;> omega
    · simp [ArbitrationOutcomeContent.basisPointSum]
    · simp [ArbitrationOutcomeContent.beneficiaries]
    · simp [ArbitrationOutcomeContent.allotments, ArbitrationOutcomeContent.others,
        ArbitrationOutcomeContent.floors, rulingShares, hne]

/-- A built split pays the buyer its share of the pool, and the seller its share with what the
fee leaves of the reserve. Without a reserve these are the only outputs. -/
theorem built_split_shares {env : Deployment} {escrow : SpendInput} {r : BuiltSpend}
    {buyerAddress sellerAddress : String} {bps : ℤ} (buyerId sellerId : String)
    (h : buildUnsignedSplit env escrow buyerAddress sellerAddress bps = .ok r) :
    ∃ buyerValue sellerBase fee,
      rulingShares .SPLIT buyerId sellerId (some bps)
        (r.utxo.value - r.minerFeeSats - escrow.maxFeeSats)
          = [⟨buyerId, buyerValue⟩, ⟨sellerId, sellerBase⟩] ∧
      r.outputs = ⟨some buyerAddress, buyerValue⟩ ::
        ⟨some sellerAddress, sellerBase + escrow.maxFeeSats - spendTotal fee⟩ :: fee ∧
      (escrow.maxFeeSats = 0 → fee = []) := by
  obtain ⟨-, decision, hdecision, hout⟩ := split_conserves h
  refine ⟨_, _, if decision.waived then [] else
    [⟨decision.collectionAddress, decision.feeSats⟩], rfl, ?_, fun hzero => ?_⟩
  · rw [hout, splitOutputs]
    cases decision.waived <;> simp [spendTotal]
  · rw [splitFeeDecision_waived hdecision hzero]
    rfl

/-! ## The committed text -/

/-- The name of a ruling. -/
def ArbitrationRuling.text : ArbitrationRuling → String
  | .RELEASE => "RELEASE"
  | .REFUND => "REFUND"
  | .SPLIT => "SPLIT"

/-- `ECONOMIC_OUTCOME_DOMAIN`. -/
def ECONOMIC_OUTCOME_DOMAIN : String := "SAILS_ECONOMIC_OUTCOME_V1"

/-- `ECONOMIC_OUTCOME_VERSION`. -/
def ECONOMIC_OUTCOME_VERSION : ℕ := 1

/-- `localeCompare` of two ids : negative, zero or positive. -/
abbrev LocaleCompare := String → String → ℤ

/-- `localeCompare` is a total order of the ids of a list. -/
structure OrdersIds (localeCompare : LocaleCompare) (ids : List String) : Prop where
  trans : ∀ a ∈ ids, ∀ b ∈ ids, ∀ c ∈ ids, localeCompare a b ≤ 0 → localeCompare b c ≤ 0 →
    localeCompare a c ≤ 0
  total : ∀ a ∈ ids, ∀ b ∈ ids, localeCompare a b ≤ 0 ∨ localeCompare b a ≤ 0
  antisymm : ∀ a ∈ ids, ∀ b ∈ ids, localeCompare a b ≤ 0 → localeCompare b a ≤ 0 → a = b

section Canonical

variable (localeCompare : LocaleCompare)

/-- The allocations in the order of their beneficiaries. -/
def canonicalAllocations (c : OutcomeText) : List AllocationInput :=
  c.allocations.mergeSort fun a b => localeCompare a.beneficiary b.beneficiary ≤ 0

/-- One allocation in the text. -/
def allocationText (a : AllocationInput) : String :=
  a.beneficiary ++ ":" ++ a.basisPoints.repr

/-- The part of the text for the allocations. -/
def allocationsPart (c : OutcomeText) : String :=
  ",".intercalate ((canonicalAllocations localeCompare c).map allocationText)

/-- The parts of the text, in the fixed order of the fields. -/
def canonicalParts (c : OutcomeText) : List String :=
  [ECONOMIC_OUTCOME_DOMAIN, ECONOMIC_OUTCOME_VERSION.repr, c.ruling.text, c.asset, c.totalUnits,
    allocationsPart localeCompare c, c.remainderBeneficiary]

/-- `canonicalizeOutcomeContent`. -/
def canonicalizeOutcomeContent (c : OutcomeText) : Except OutcomeTextError String := do
  c.assertWellFormed
  pure ("|".intercalate (canonicalParts localeCompare c))

variable {localeCompare}

/-- Ids and asset hold no separator of the text. -/
structure Separable (c : OutcomeText) : Prop where
  ids : ∀ id ∈ c.ids, ':' ∉ id.toList ∧ ',' ∉ id.toList ∧ '|' ∉ id.toList
  asset : ':' ∉ c.asset.toList ∧ ',' ∉ c.asset.toList ∧ '|' ∉ c.asset.toList

theorem canonicalize_eq {c : OutcomeText} (h : c.WellFormed) :
    canonicalizeOutcomeContent localeCompare c =
      .ok ("|".intercalate (canonicalParts localeCompare c)) := by
  have hwf : c.assertWellFormed = .ok () := h
  rw [canonicalizeOutcomeContent, hwf]
  rfl

theorem canonicalAllocations_perm (c : OutcomeText) :
    (canonicalAllocations localeCompare c).Perm c.allocations :=
  List.mergeSort_perm _ _

/-- No separator is a digit or a sign. -/
theorem not_mem_repr {c : Char} (hdigit : c.isDigit = false) {z : ℤ} (hz : 0 ≤ z) :
    c ∉ z.repr.toList := by
  obtain ⟨n, rfl⟩ := Int.eq_ofNat_of_zero_le hz
  intro hc
  have hrepr : (n : ℤ).repr = n.repr := rfl
  rw [hrepr, Nat.toList_repr] at hc
  rw [Nat.isDigit_of_mem_toDigits (by decide) (by decide) hc] at hdigit
  cases hdigit

theorem not_mem_of_isDigits {c : Char} (hdigit : c.isDigit = false) {s : String}
    (hs : isDigits s = true) : c ∉ s.toList := by
  intro hc
  rw [isDigits, Bool.and_eq_true, List.all_eq_true] at hs
  rw [hs.2 c hc] at hdigit
  cases hdigit

theorem ruling_text_injective : Function.Injective ArbitrationRuling.text := by
  intro a b h
  cases a <;> cases b <;> first | rfl | simp [ArbitrationRuling.text] at h

section Parts

variable {c c' : OutcomeText}

theorem basisPoints_nonneg (h : c.WellFormed) {a : AllocationInput} (ha : a ∈ c.allocations) :
    0 ≤ a.basisPoints := by
  have := ((OutcomeText.wellFormed_iff.mp h).2.range a ha).1
  exact Int.le_trans (by decide) this

theorem not_mem_allocationText {d : Char} (hdigit : d.isDigit = false) (hcolon : d ≠ ':')
    {a : AllocationInput} (hid : d ∉ a.beneficiary.toList) (hbps : 0 ≤ a.basisPoints) :
    d ∉ (allocationText a).toList := by
  have hcolons : ":".toList = [':'] := rfl
  simp only [allocationText, String.toList_append, hcolons, List.mem_append, List.mem_singleton,
    not_or]
  exact ⟨⟨hid, hcolon⟩, not_mem_repr hdigit hbps⟩

/-- An allocation can be read back from its text. -/
theorem allocationText_inj {a a' : AllocationInput} (hid : ':' ∉ a.beneficiary.toList)
    (hbps : 0 ≤ a.basisPoints) (h : allocationText a = allocationText a') : a = a' := by
  obtain ⟨hbeneficiary, hrepr⟩ :=
    Text.append_inj_of_not_mem (c := ':') hid (not_mem_repr (by decide) hbps) h
  have hpoints : a.basisPoints = a'.basisPoints := Int.repr_injective hrepr
  cases a
  cases a'
  simp_all

theorem mem_canonicalAllocations {a : AllocationInput}
    (ha : a ∈ canonicalAllocations localeCompare c) : a ∈ c.allocations :=
  (canonicalAllocations_perm c).mem_iff.mp ha

theorem id_mem {a : AllocationInput} (ha : a ∈ canonicalAllocations localeCompare c) :
    a.beneficiary ∈ c.ids :=
  List.mem_map_of_mem (mem_canonicalAllocations ha)

theorem not_mem_allocationsPart (h : c.WellFormed) (hsep : Separable c) :
    '|' ∉ (allocationsPart localeCompare c).toList := by
  refine Text.not_mem_intercalate (c := ',') (fun s hs => ?_) (by decide)
  obtain ⟨a, ha, rfl⟩ := List.mem_map.mp hs
  exact not_mem_allocationText (by decide) (by decide) (hsep.ids _ (id_mem ha)).2.2
    (basisPoints_nonneg h (mem_canonicalAllocations ha))

/-- No part of a separable outcome has a bar. -/
theorem not_mem_part (h : c.WellFormed) (hsep : Separable c) :
    ∀ s ∈ canonicalParts localeCompare c, '|' ∉ s.toList := by
  obtain ⟨hdigits, hwf⟩ := OutcomeText.wellFormed_iff.mp h
  intro s hs
  simp only [canonicalParts, List.mem_cons, List.not_mem_nil, or_false] at hs
  rcases hs with rfl | rfl | rfl | rfl | rfl | rfl | rfl
  · decide
  · decide
  · cases c.ruling <;> decide
  · exact hsep.asset.2.2
  · exact not_mem_of_isDigits (by decide) hdigits
  · exact not_mem_allocationsPart h hsep
  · exact (hsep.ids _ hwf.remainder).2.2

/-- The sorted allocations can be read back from their part of the text. -/
theorem canonicalAllocations_inj (h : c.WellFormed) (h' : c'.WellFormed) (hsep : Separable c)
    (hsep' : Separable c')
    (heq : allocationsPart localeCompare c = allocationsPart localeCompare c') :
    canonicalAllocations localeCompare c = canonicalAllocations localeCompare c' := by
  have hcomma : ∀ {d : OutcomeText}, d.WellFormed → Separable d →
      ∀ s ∈ (canonicalAllocations localeCompare d).map allocationText, ',' ∉ s.toList := by
    intro d hd hsepd s hs
    obtain ⟨a, ha, rfl⟩ := List.mem_map.mp hs
    exact not_mem_allocationText (by decide) (by decide) (hsepd.ids _ (id_mem ha)).2.1
      (basisPoints_nonneg hd (mem_canonicalAllocations ha))
  have hne : ∀ {d : OutcomeText}, d.WellFormed →
      (canonicalAllocations localeCompare d).map allocationText ≠ [] := by
    intro d hd hnil
    have hempty := (List.map_eq_nil_iff.mp hnil).symm ▸ canonicalAllocations_perm d
    exact (OutcomeText.wellFormed_iff.mp hd).2.nonempty (List.nil_perm.mp hempty)
  have hlists := Text.intercalate_inj (c := ',') (hcomma h hsep) (hcomma h' hsep') (hne h) (hne h')
    heq
  have hinj : ∀ a ∈ canonicalAllocations localeCompare c,
      ∀ a' ∈ canonicalAllocations localeCompare c', allocationText a = allocationText a' →
        a = a' := fun a ha _ _ htext =>
    allocationText_inj (hsep.ids _ (id_mem ha)).1
      (basisPoints_nonneg h (mem_canonicalAllocations ha)) htext
  exact Text.map_inj_of_mem hinj hlists

/-- Contents that agree have their allocations in the same order. -/
theorem canonicalAllocations_of_agrees (h : c.WellFormed) (horder : OrdersIds localeCompare c.ids)
    (hagrees : c.Agrees c') :
    canonicalAllocations localeCompare c = canonicalAllocations localeCompare c' := by
  have hid : ∀ a ∈ c.allocations, a.beneficiary ∈ c.ids := fun a ha => List.mem_map_of_mem ha
  refine Sorting.mergeSort_eq_of_perm ⟨fun a ha b hb d hd hab hbd => ?_, fun a ha b hb => ?_,
    fun a ha b hb hab hba => ?_⟩ hagrees.allocations
  · simp only [decide_eq_true_eq] at hab hbd ⊢
    exact horder.trans _ (hid a ha) _ (hid b hb) _ (hid d hd) hab hbd
  · simpa using horder.total _ (hid a ha) _ (hid b hb)
  · simp only [decide_eq_true_eq] at hab hba
    have hsame := horder.antisymm _ (hid a ha) _ (hid b hb) hab hba
    exact List.inj_on_of_nodup_map (OutcomeText.wellFormed_iff.mp h).2.distinct ha hb hsame

/-- The committed texts of two contents are equal exactly when the contents agree. -/
theorem canonicalize_eq_iff (h : c.WellFormed) (h' : c'.WellFormed) (hsep : Separable c)
    (hsep' : Separable c') (horder : OrdersIds localeCompare c.ids) :
    canonicalizeOutcomeContent localeCompare c = canonicalizeOutcomeContent localeCompare c' ↔
      c.Agrees c' := by
  rw [canonicalize_eq h, canonicalize_eq h', Except.ok.injEq]
  constructor
  · intro heq
    have hparts := Text.intercalate_inj (c := '|') (not_mem_part h hsep) (not_mem_part h' hsep')
      (by simp [canonicalParts]) (by simp [canonicalParts]) heq
    simp only [canonicalParts, List.cons.injEq, and_true, true_and] at hparts
    obtain ⟨hruling, hasset, htotal, hallocations, hremainder⟩ := hparts
    have hcanonical := canonicalAllocations_inj h h' hsep hsep' hallocations
    refine ⟨ruling_text_injective hruling, htotal, hasset, ?_, hremainder⟩
    have hperm := @canonicalAllocations_perm localeCompare c
    rw [hcanonical] at hperm
    exact hperm.symm.trans (canonicalAllocations_perm c')
  · intro hagrees
    have hcanonical := canonicalAllocations_of_agrees h horder hagrees
    simp only [canonicalParts, allocationsPart, hcanonical, hagrees.ruling, hagrees.asset,
      hagrees.totalUnits, hagrees.remainderBeneficiary]

end Parts

end Canonical

/-- Shares are exact and free of order, a ruling divides a pool as the transaction of a split
does, and the committed text fixes the content up to the order of its allocations. -/
theorem outcome_allocation_exact (localeCompare : LocaleCompare) :
    (∀ (c : OutcomeText) (total : ℤ), c.WellFormed → 0 ≤ total →
      ∃ entries, c.allocate total = .ok entries ∧
        (entries.map Allotment.beneficiary).Perm c.ids ∧
        (entries.map Allotment.units).sum = total ∧
        (∀ a ∈ c.allocations, a.beneficiary ≠ c.remainderBeneficiary →
          ⟨a.beneficiary, total * a.basisPoints / 10000⟩ ∈ entries) ∧
        (∃ a ∈ c.allocations, a.beneficiary = c.remainderBeneficiary ∧
          ∃ units, ⟨c.remainderBeneficiary, units⟩ ∈ entries ∧
            total * a.basisPoints / 10000 ≤ units ∧
            units < total * a.basisPoints / 10000 + c.allocations.length) ∧
        ∀ c' : OutcomeText, c.Agrees c' →
          ∃ entries', c'.allocate total = .ok entries' ∧ entries.Perm entries') ∧
    (∀ (ruling : ArbitrationRuling) (totalUnits : ℕ) (asset buyerId sellerId : String)
      (buyerBps : Option ℤ), buyerId ≠ sellerId → LegalBps ruling buyerBps →
      ∃ content, buildRulingOutcomeContent ruling totalUnits asset buyerId sellerId buyerBps =
          .ok content ∧ assertWellFormedOutcomeContent content = .ok () ∧
        (∀ pool, allocateExactUnitsOverTotal content pool =
          .ok (rulingShares ruling buyerId sellerId buyerBps pool)) ∧
        ∀ env escrow buyerAddress sellerAddress bps r, buyerBps = some bps → ruling = .SPLIT →
          buildUnsignedSplit env escrow buyerAddress sellerAddress bps = .ok r →
          ∃ buyerValue sellerBase fee,
            allocateExactUnitsOverTotal content
                (r.utxo.value - r.minerFeeSats - escrow.maxFeeSats) =
              .ok [⟨buyerId, buyerValue⟩, ⟨sellerId, sellerBase⟩] ∧
            r.outputs = ⟨some buyerAddress, buyerValue⟩ ::
              ⟨some sellerAddress, sellerBase + escrow.maxFeeSats - spendTotal fee⟩ :: fee ∧
            (escrow.maxFeeSats = 0 → fee = [])) ∧
    ∀ c c' : OutcomeText, c.WellFormed → c'.WellFormed → Separable c → Separable c' →
      OrdersIds localeCompare c.ids → OrdersIds localeCompare c'.ids →
      (canonicalizeOutcomeContent localeCompare c = canonicalizeOutcomeContent localeCompare c' ↔
        c.Agrees c') := by
  refine ⟨fun c total hwf ht => ?_, fun ruling totalUnits asset buyerId sellerId buyerBps hne hbps
    => ?_, fun c c' h h' hsep hsep' horder _ => canonicalize_eq_iff h h' hsep hsep' horder⟩
  · have hcontent := (OutcomeText.wellFormed_iff.mp hwf).2
    refine ⟨_, OutcomeText.allocate_eq hwf total,
      ArbitrationOutcomeContent.perm_allotments hcontent total,
      ArbitrationOutcomeContent.sum_units _ total,
      fun a ha hother => ArbitrationOutcomeContent.mem_allotments_of_ne ht hcontent ha hother,
      ArbitrationOutcomeContent.remainder_bounds ht hcontent, fun c' hagrees => ?_⟩
    exact ⟨_, OutcomeText.allocate_eq (hagrees.wellFormed hwf) total,
      ArbitrationOutcomeContent.perm_of_perm hagrees.allocations hagrees.remainderBeneficiary⟩
  · obtain ⟨content, hbuild, hcontent, hshares⟩ :=
      buildRulingOutcomeContent_spec totalUnits asset hne hbps
    have halloc : ∀ pool, allocateExactUnitsOverTotal content pool =
        .ok (rulingShares ruling buyerId sellerId buyerBps pool) := by
      intro pool
      rw [allocateExactUnitsOverTotal_eq hcontent, hshares]
    refine ⟨content, hbuild, (assertWellFormedOutcomeContent_ok_iff _).mpr hcontent, halloc, ?_⟩
    rintro env escrow buyerAddress sellerAddress bps r rfl rfl hbuilt
    obtain ⟨buyerValue, sellerBase, fee, hpool, hrest⟩ :=
      built_split_shares buyerId sellerId hbuilt
    exact ⟨buyerValue, sellerBase, fee, (halloc _).trans (congrArg _ hpool), hrest⟩

end Sails.Settlement
