import SailsProtocol.Fees.Reversal

/-!
# The split of a fee among its recipients

`allocate` turns the fee into whole native units with `toFixed`, gives each recipient
`C · w / 100` in a decimal of twenty digits, and checks that the shares add up to `C`. The
ledger keeps eight places of each amount, and two reports of `distribution-reconciliation.ts`
check it later with a conversion of their own.

`split_exact` : in every sequence of allocations and complete reversals whose fees are not
rounded up and whose shares fit the ledger and the decimals, every allocation is exact and
both reports are empty. `split_rounded_up` is a fee of 1.5 native units, of which 2 are
allocated.
-/

namespace Sails.Fees

open Async Numeric Text

/-! ## Sums of decimals -/

/-- Decimals added one after the other lose nothing when no sum of some of them has more than
twenty digits. -/
theorem foldl_plus {all : List ℚ} (hall : ∀ l : List ℚ, l.Subperm all → decimal l.sum = l.sum) :
    ∀ {l pre : List ℚ}, (pre ++ l).Subperm all → l.foldl plus pre.sum = (pre ++ l).sum
  | [], pre, _ => by simp
  | x :: l, pre, hsub => by
    have hpre : (pre ++ [x]).Subperm all := by
      refine List.Subperm.trans (List.Sublist.subperm ?_) hsub
      exact List.Sublist.append_left (List.singleton_sublist.mpr List.mem_cons_self) pre
    have hplus : plus pre.sum x = (pre ++ [x]).sum := by
      have hsum : pre.sum + x = (pre ++ [x]).sum := by simp
      rw [plus, hsum, hall _ hpre]
    have hrest : (pre ++ [x]) ++ l = pre ++ x :: l := by simp
    rw [List.foldl_cons, hplus, foldl_plus hall (by rwa [hrest]), hrest]

theorem total_eq_sum {all l : List ℚ} (hall : ∀ l : List ℚ, l.Subperm all → decimal l.sum = l.sum)
    (hl : l.Subperm all) : total l = l.sum :=
  @foldl_plus all hall l [] hl

/-- A sum of whole units is one. -/
theorem exists_units_sum : ∀ {l : List ℚ}, (∀ x ∈ l, ∃ n : ℕ, x = ofUnits n) →
    ∃ n : ℕ, l.sum = ofUnits n
  | [], _ => ⟨0, by simp [ofUnits]⟩
  | x :: l, h => by
    obtain ⟨n, hn⟩ := h x List.mem_cons_self
    obtain ⟨m, hm⟩ := exists_units_sum fun y hy => h y (List.mem_cons_of_mem x hy)
    refine ⟨n + m, ?_⟩
    rw [List.sum_cons, hn, hm, ofUnits, ofUnits, ofUnits]
    push_cast
    ring

theorem sum_le_of_subperm {l all : List ℚ} (h : l.Subperm all) (hall : ∀ x ∈ all, 0 ≤ x) :
    l.sum ≤ all.sum := by
  obtain ⟨l', hperm, hsub⟩ := h
  rw [← hperm.sum_eq]
  exact hsub.sum_le_sum hall

/-! ## Generations -/

/-- What a collection generation is allocated from : the fee of its obligation, and the
recipients of the distribution policy its confirmation froze. -/
structure Generation where
  computedFee : ℚ
  asset : AssetType
  rail : JsString
  distributionPolicyVersionId : ℕ
  recipients : List Recipient

namespace Generation

variable (gen : Generation)

/-- The decimal places of the asset. -/
def decimals : ℕ := (nativeUnitDecimalsFor gen.asset).getD 0

/-- The fee in native units, rounded down. -/
def collected : ℕ := ⌊gen.computedFee * 10 ^ gen.decimals⌋.toNat

/-- The exact share of a recipient. -/
def share (r : Recipient) : ℚ := gen.collected * r.weightPct / 100

/-- The share of each recipient. -/
def shares : List ℚ := gen.recipients.map gen.share

/-- The rows of an exact split. -/
def rows (g : ℕ) : List EntryInput :=
  gen.recipients.map fun r =>
    { confirmationEvidenceId := g, distributionPolicyVersionId := gen.distributionPolicyVersionId,
      recipientId := r.recipientId, asset := gen.asset, rail := gen.rail, kind := .ALLOCATION,
      amount := gen.share r }

/-- A fee in a supported asset, and a published policy : positive weights of eight places that
sum to 100, each recipient once. -/
structure Published : Prop where
  supported : nativeUnitDecimalsFor gen.asset = some gen.decimals
  fee : ∃ n : ℕ, gen.computedFee = ofUnits n
  weights : ∀ r ∈ gen.recipients, ∃ n : ℕ, 0 < n ∧ r.weightPct = ofUnits n
  whole : (gen.recipients.map Recipient.weightPct).sum = 100
  distinct : (gen.recipients.map Recipient.recipientId).Nodup

/-- The fee is not rounded up, there is something to share, each share has eight places, and
every sum of some shares less some others has twenty digits. -/
structure Divisible : Prop where
  rounding : Int.fract (gen.computedFee * 10 ^ gen.decimals) < 1 / 2
  positive : 0 < gen.collected
  places : ∀ r ∈ gen.recipients, ∃ n : ℕ, gen.share r = ofUnits n
  digits : ∀ l : List ℚ, l.Subperm (gen.shares ++ gen.shares.map Neg.neg) → decimal l.sum = l.sum

end Generation

/-! ## An exact split -/

section Exact

variable {gen : Generation}

theorem Generation.Published.fee_nonneg (h : gen.Published) :
    0 ≤ gen.computedFee * 10 ^ gen.decimals := by
  obtain ⟨n, hn⟩ := h.fee
  rw [hn, ofUnits]
  positivity

/-- A fraction below one half is cut off. -/
theorem toFixed_eq_floor {x : ℚ} (hx : 0 ≤ x) (hfract : Int.fract x < 1 / 2) :
    toFixed x = ⌊x⌋ := by
  rw [toFixed, if_pos hx]
  refine Int.floor_eq_iff.mpr ⟨?_, ?_⟩
  · have := Int.floor_le x
    linarith
  · rw [← Int.self_sub_floor] at hfract
    linarith

theorem native_eq_collected (hp : gen.Published) (hd : gen.Divisible) :
    toNativeUnits (toFixedText gen.decimals gen.computedFee) gen.decimals = gen.collected := by
  rw [toNativeUnits, toFixedText, decimalUnits_fixedText,
    toFixed_eq_floor hp.fee_nonneg hd.rounding, Generation.collected]

/-- The weights of a published policy add up. -/
theorem total_weights (hp : gen.Published) :
    total (gen.recipients.map Recipient.weightPct) = 100 := by
  rw [← hp.whole]
  refine total_eq_sum (fun l hl => ?_) (List.Subperm.refl _)
  -- a sum of some weights is a number of units of at most 100
  have hunits : ∀ w ∈ gen.recipients.map Recipient.weightPct, ∃ n : ℕ, w = ofUnits n := by
    intro w hw
    obtain ⟨r, hr, rfl⟩ := List.mem_map.mp hw
    obtain ⟨n, -, hn⟩ := hp.weights r hr
    exact ⟨n, hn⟩
  obtain ⟨n, hn⟩ := exists_units_sum fun w hw => hunits w (hl.subset hw)
  have hle : l.sum ≤ 100 := by
    rw [← hp.whole]
    refine sum_le_of_subperm hl fun w hw => ?_
    obtain ⟨m, rfl⟩ := hunits w hw
    rw [ofUnits]
    positivity
  rw [hn]
  refine decimal_ofUnits ?_
  rw [hn, ofUnits, div_le_iff₀ (by positivity)] at hle
  have : n ≤ 100 * 10 ^ 8 := by exact_mod_cast hle
  omega

/-- A share is computed exactly. -/
theorem entitlement_eq_share (hd : gen.Divisible) {r : Recipient} (hr : r ∈ gen.recipients) :
    entitlement gen.collected r.weightPct = gen.share r := by
  obtain ⟨n, hn⟩ := hd.places r hr
  have hshare : decimal (gen.share r) = gen.share r := by
    have hsub : [gen.share r].Subperm (gen.shares ++ gen.shares.map Neg.neg) :=
      (List.singleton_sublist.mpr
        (List.mem_append_left _ (List.mem_map_of_mem hr))).subperm
    simpa using hd.digits _ hsub
  have hproduct : gen.collected * r.weightPct = gen.share r * 10 ^ 2 := by
    rw [Generation.share]
    ring
  have hnonneg : 0 ≤ gen.collected * r.weightPct := by
    rw [hproduct, hn, ofUnits]
    positivity
  have hdecimal : decimal (gen.collected * r.weightPct) = gen.collected * r.weightPct := by
    have hscale := decimal_div_pow (gen.collected * r.weightPct) 2 hnonneg
    have hdiv : gen.collected * r.weightPct / 10 ^ 2 = gen.share r := by
      rw [Generation.share]
      norm_num
    rw [hdiv, hshare] at hscale
    field_simp at hscale
    exact hscale.symm.trans hproduct.symm
  rw [entitlement, times, hdecimal, dividedBy, ← Generation.share, hshare]

theorem sum_shares (hp : gen.Published) : gen.shares.sum = gen.collected := by
  have hshare : gen.shares = gen.recipients.map fun r => (gen.collected : ℚ) / 100 * r.weightPct := by
    refine List.map_congr_left fun r _ => ?_
    rw [Generation.share]
    ring
  rw [hshare, List.sum_map_mul_left, hp.whole]
  ring

/-- The rows of an allocation are those of the exact split. -/
theorem entitlements_exact (hp : gen.Published) (hd : gen.Divisible) (g : ℕ) :
    entitlements gen.computedFee gen.asset gen.rail g gen.distributionPolicyVersionId
      gen.recipients = .ok (gen.rows g) := by
  have hshares : gen.recipients.map (fun r => entitlement gen.collected r.weightPct) =
      gen.shares :=
    List.map_congr_left fun r hr => entitlement_eq_share hd hr
  have htotal : total gen.shares = gen.collected := by
    rw [total_eq_sum hd.digits (List.sublist_append_left _ _).subperm, sum_shares hp]
  unfold entitlements
  rw [hp.supported]
  simp only
  rw [native_eq_collected hp hd, total_weights hp, hshares, htotal, if_neg (by simp),
    if_neg (by simp), Generation.rows]
  refine congrArg Except.ok (List.map_congr_left fun r hr => ?_)
  rw [entitlement_eq_share hd hr]

end Exact

/-! ## Sequences of allocations and reversals -/

/-- A call that is run alone, with every statement answered. -/
def runAlone (P : Platform) (p : FeeOp Unit) (s : FeeStore) : Except FeeError Unit × FeeStore :=
  p.runAlone (fun q => q.exec P { }) s

namespace Generation

variable (gen : Generation) (g : ℕ)

/-- The platform of the generation : its rail and the recipients of its policy. -/
def platform : Platform := ⟨gen.rail, none, fun _ => gen.recipients⟩

/-- The confirmation, which has the number `g`. -/
def confirmation : Evidence where
  kind := .CONFIRMED
  txid := 0
  distributionPolicyVersionId := some gen.distributionPolicyVersionId
  id := g
  recordedAt := 0

/-- The account of the collected fee. -/
def account (ledger : List Entry) : FeeStore where
  obligation := some ⟨0, .OWED, some .COLLECTED, none, some gen.computedFee, some gen.asset⟩
  evidence := [gen.confirmation g]
  ledger := ledger

end Generation

/-- A step of the books. -/
inductive LedgerStep where
  | allocate (g : ℕ)
  | reverseGeneration (g : ℕ)
  deriving DecidableEq, Repr

/-- What a step returns, and the ledger after it. -/
def LedgerStep.apply (gens : ℕ → Generation) (ledger : List Entry) :
    LedgerStep → Except FeeError Unit × FeeStore
  | .allocate g => runAlone (gens g).platform (Fees.allocate (gens g).platform)
      ((gens g).account g ledger)
  | .reverseGeneration g => runAlone (gens g).platform (Fees.reverseGeneration g)
      ((gens g).account g ledger)

/-- The ledger of all generations, after one step. -/
def bookStep (gens : ℕ → Generation) (ledger : List Entry) (a : LedgerStep) : List Entry :=
  (a.apply gens ledger).2.ledger

/-- The rows of one generation. -/
def entriesOf (ledger : List Entry) (g : ℕ) : List Entry :=
  ledger.filter (·.confirmationEvidenceId = g)

/-! ## The reports -/

/-- The native units the report expects, from the text of the fee. -/
def expectedNative (computedFee : ℚ) (decimals : ℕ) : ℕ :=
  let (whole, fraction) := splitPoint (toFixedText decimals computedFee)
  natValue ((if whole = natText 0 then [] else whole) ++ padEnd decimals fraction)

/-- A row of `findGenerationSumMismatches` : the net, and the amount that was expected unless
the generation is fully reversed. -/
structure GenerationSumMismatch where
  confirmationEvidenceId : ℕ
  netAllocated : ℚ
  collectedAmountNative : Option ℕ
  deriving DecidableEq

/-- Every allocation is reversed. -/
def fullyReversed (entries : List Entry) : Bool :=
  (entries.filter (·.kind = .ALLOCATION)).all fun alloc => isReversed entries (some alloc.id)

/-- The report on the rows of one generation, in the order the database gives them. -/
def generationMismatch (gen : Generation) (g : ℕ) (entries : List Entry) :
    Option GenerationSumMismatch :=
  let net := total (entries.map (·.amount))
  if fullyReversed entries then if net = 0 then none else some ⟨g, net, none⟩
  else
    match nativeUnitDecimalsFor gen.asset with
    | none => none
    | some decimals =>
      let expected := expectedNative gen.computedFee decimals
      if net = expected then none else some ⟨g, net, some expected⟩

/-- `findGenerationSumMismatches`. `arrange` is the order the database gives rows in. -/
def findGenerationSumMismatches (gens : ℕ → Generation) (arrange : List Entry → List Entry)
    (ledger : List Entry) : List GenerationSumMismatch :=
  ((ledger.filter (·.kind = .ALLOCATION)).map (·.confirmationEvidenceId)).dedup.filterMap
    fun g => generationMismatch (gens g) g (arrange (entriesOf ledger g))

/-- What `groupBy` groups by. -/
def EntryInput.group (e : EntryInput) : ℕ × AssetType × JsString := (e.recipientId, e.asset, e.rail)

/-- The net balance of a recipient in an asset on a rail. -/
def balance (ledger : List Entry) (group : ℕ × AssetType × JsString) : ℚ :=
  ((ledger.filter (·.group = group)).map (·.amount)).sum

/-- `findNegativeRecipientBalances`. -/
def findNegativeRecipientBalances (ledger : List Entry) : List (ℕ × AssetType × JsString) :=
  ((ledger.map (·.group)).dedup).filter fun group => balance ledger group < 0

/-! ## Balances -/

/-- In a well kept ledger no balance is negative : what is reversed was allocated. -/
theorem WellKept.balance_nonneg {ledger : List Entry} (h : WellKept ledger)
    (group : ℕ × AssetType × JsString) : 0 ≤ balance ledger group := by
  have hgroup := (List.filter_sublist (l := ledger) (p := fun e => decide (e.group = group)))
  set own := ledger.filter (·.group = group) with hown
  set R := own.filter (·.kind = .REVERSAL) with hR
  set A := own.filter (·.kind = .ALLOCATION) with hA
  have hsplit : balance ledger group = (A.map (·.amount)).sum + (R.map (·.amount)).sum := by
    have hperm : (A ++ R).Perm own := by
      have hnot : R = own.filter fun e => !decide (e.kind = .ALLOCATION) :=
        List.filter_congr fun e _ => by cases e.kind <;> rfl
      rw [hnot]
      exact List.filter_append_perm _ own
    rw [balance, ← hown, ← (hperm.map _).sum_eq, List.map_append, List.sum_append]
  -- each reversal stands for an allocation of its amount, and no two for the same
  have hsub : (R.map fun r => (r.confirmationEvidenceId, r.recipientId, -r.amount)).Subperm
      (A.map fun e => (e.confirmationEvidenceId, e.recipientId, e.amount)) := by
    refine List.Nodup.subperm ?_ fun x hx => ?_
    · have hkeys : (R.map (·.key)).Nodup :=
        (((List.filter_sublist.trans hgroup).map _).nodup h.keys)
      refine List.Nodup.of_map (fun x : ℕ × ℕ × ℚ => (x.1, x.2.1, EntryKind.REVERSAL)) ?_
      rw [List.map_map]
      refine (congrArg List.Nodup (List.map_congr_left fun r hr => ?_)).mpr hkeys
      have hkind := of_decide_eq_true (List.mem_filter.mp hr).2
      rw [Function.comp_apply, EntryInput.key, hkind]
    · obtain ⟨r, hr, rfl⟩ := List.mem_map.mp hx
      obtain ⟨hrown, hrkind⟩ := List.mem_filter.mp hr
      obtain ⟨hrledger, hrgroup⟩ := List.mem_filter.mp hrown
      obtain ⟨e, he, hekind, hre⟩ := h.offsets r hrledger (of_decide_eq_true hrkind)
      have hegroup : e.group = group := by
        rw [← of_decide_eq_true hrgroup, hre]
        rfl
      have heA : e ∈ A := List.mem_filter.mpr
        ⟨List.mem_filter.mpr ⟨he, decide_eq_true hegroup⟩, decide_eq_true hekind⟩
      refine List.mem_map.mpr ⟨e, heA, ?_⟩
      rw [hre]
      simp [Entry.reversal]
  obtain ⟨kept, hperm, hkept⟩ := hsub
  have hamounts := sum_le_of_subperm ⟨_, hperm.map fun x => x.2.2, hkept.map fun x => x.2.2⟩ ?_
  · have hneg : ((R.map fun r => (r.confirmationEvidenceId, r.recipientId, -r.amount)).map
        fun x : ℕ × ℕ × ℚ => x.2.2).sum = -(R.map (·.amount)).sum := by
      rw [List.map_map, List.sum_neg, List.map_map]
      rfl
    rw [hneg, List.map_map] at hamounts
    have hall : ((fun x : ℕ × ℕ × ℚ => x.2.2) ∘ fun e : Entry =>
        (e.confirmationEvidenceId, e.recipientId, e.amount)) = fun e => e.amount := rfl
    rw [hall] at hamounts
    linarith
  · intro x hx
    rw [List.map_map] at hx
    obtain ⟨e, he, rfl⟩ := List.mem_map.mp hx
    obtain ⟨heown, hekind⟩ := List.mem_filter.mp he
    exact (h.amounts e (List.mem_filter.mp heown).1 (of_decide_eq_true hekind)).1.le

/-! ## Steps of the ledger -/

/-- Rows with new keys are inserted. -/
theorem insertEntries_fresh : ∀ {inputs : List EntryInput} {ledger : List Entry},
    (∀ i ∈ inputs, i.stored.signed = true) → (inputs.map EntryInput.key).Nodup →
    (∀ i ∈ inputs, ∀ x ∈ ledger, x.key ≠ i.key) →
      ∃ ledger', insertEntries ledger inputs = .ok ledger'
  | [], ledger, _, _, _ => ⟨ledger, rfl⟩
  | i :: inputs, ledger, hsigned, hnodup, hfresh => by
    rw [List.map_cons, List.nodup_cons] at hnodup
    have hany : ledger.any (·.key == i.key) = false := by
      simpa using hfresh i List.mem_cons_self
    have hfirst : insertEntry ledger i = .ok (ledger ++ [⟨i.stored, ledger.length⟩]) := by
      rw [insertEntry, if_neg (by simp [hsigned i List.mem_cons_self]), if_neg (by simp [hany])]
    obtain ⟨ledger', hrest⟩ := @insertEntries_fresh inputs
      (ledger ++ [⟨i.stored, ledger.length⟩])
      (fun j hj => hsigned j (List.mem_cons_of_mem i hj)) hnodup.2 (fun j hj x hx hkey => by
        rcases List.mem_append.mp hx with hx | hx
        · exact hfresh j (List.mem_cons_of_mem i hj) x hx hkey
        · rw [List.mem_singleton.mp hx] at hkey
          exact hnodup.1 (List.mem_map.mpr ⟨j, hj, hkey.symm⟩))
    refine ⟨ledger', ?_⟩
    rw [insertEntries, List.foldlM_cons, hfirst]
    exact hrest

/-- A first row whose key is taken stops the insertion. -/
theorem insertEntries_taken {i : EntryInput} {inputs : List EntryInput} {ledger : List Entry}
    (hsigned : i.stored.signed = true) (htaken : ∃ x ∈ ledger, x.key = i.key) :
    insertEntries ledger (i :: inputs) = .error .uniqueConstraint := by
  obtain ⟨x, hx, hkey⟩ := htaken
  have hany : ledger.any (·.key == i.key) = true :=
    List.any_eq_true.mpr ⟨x, hx, by simp [hkey]⟩
  rw [insertEntries, List.foldlM_cons, insertEntry, if_neg (by simp [hsigned]), if_pos hany]
  rfl

section Steps

variable {gen : Generation} {g : ℕ}

/-- Every recipient gets something. -/
theorem share_pos (hp : gen.Published) (hd : gen.Divisible) {r : Recipient}
    (hr : r ∈ gen.recipients) : 0 < gen.share r := by
  obtain ⟨n, hpos, hn⟩ := hp.weights r hr
  have hc : (0 : ℚ) < gen.collected := by exact_mod_cast hd.positive
  have hw : 0 < r.weightPct := by
    have : (0 : ℚ) < n := by exact_mod_cast hpos
    rw [hn, ofUnits]
    positivity
  rw [Generation.share]
  positivity

/-- The rows of an exact split are stored as they are. -/
theorem stored_rows (hp : gen.Published) (hd : gen.Divisible) : ∀ i ∈ gen.rows g,
    i.stored = i ∧ i.stored.signed = true ∧ i.confirmationEvidenceId = g ∧
      i.kind = .ALLOCATION := by
  intro i hi
  obtain ⟨r, hr, rfl⟩ := List.mem_map.mp hi
  obtain ⟨n, hn⟩ := hd.places r hr
  have hcolumn : toColumn (gen.share r) = gen.share r := by rw [hn, toColumn_ofUnits]
  refine ⟨?_, ?_, rfl, rfl⟩
  · rw [EntryInput.stored, hcolumn]
  · rw [EntryInput.stored, EntryInput.signed, hcolumn]
    exact decide_eq_true (share_pos hp hd hr)

theorem keys_rows (hp : gen.Published) : ((gen.rows g).map EntryInput.key).Nodup := by
  refine List.Nodup.of_map (fun k : ℕ × ℕ × EntryKind => k.2.1) ?_
  rw [Generation.rows, List.map_map, List.map_map]
  exact hp.distinct

theorem rows_ne_nil (hp : gen.Published) : gen.rows g ≠ [] := by
  intro hnil
  have hwhole := hp.whole
  rw [Generation.rows, List.map_eq_nil_iff] at hnil
  rw [hnil] at hwhole
  norm_num at hwhole

theorem sum_rows (hp : gen.Published) :
    ((gen.rows g).map EntryInput.amount).sum = gen.collected := by
  rw [← sum_shares hp, Generation.rows, List.map_map]
  rfl

/-- An allocation inserts the rows of the exact split. -/
theorem apply_allocate {gens : ℕ → Generation} (hp : (gens g).Published)
    (hd : (gens g).Divisible) (ledger : List Entry) :
    (LedgerStep.allocate g).apply gens ledger =
      ((gens g).account g ledger).insert ((gens g).rows g) := by
  have hrecipients : (gens g).recipients.isEmpty = false := by
    rw [List.isEmpty_eq_false_iff]
    intro hnil
    exact rows_ne_nil (g := g) hp (by rw [Generation.rows, hnil, List.map_nil])
  have hlatest : latest id .CONFIRMED [(gens g).confirmation g] =
      some ((gens g).confirmation g) := rfl
  have hpolicy : ((gens g).confirmation g).distributionPolicyVersionId =
      some (gens g).distributionPolicyVersionId := rfl
  have hid : ((gens g).confirmation g).id = g := rfl
  simp only [LedgerStep.apply, runAlone, Fees.allocate, await, Prog.runAlone_bind,
    Prog.runAlone_perform, Call.exec, Call.run, Fate.settle, Generation.account, Prog.orThrow,
    Prog.runAlone_pure, Prog.runAlone_require, Generation.platform, beq_self_eq_true, if_true,
    hlatest, hpolicy, hid, hrecipients, Bool.not_false, entitlements_exact hp hd g,
    Prog.runAlone]

theorem insertEntries_singleton (ledger : List Entry) (i : EntryInput) :
    insertEntries ledger [i] = insertEntry ledger i := by
  cases h : insertEntry ledger i <;>
    simp [insertEntries, h, pure, Except.pure, bind, Except.bind]

/-- One reversal inserts its row. -/
theorem runAlone_reverseEntry {P : Platform} {s : FeeStore} {e : Entry} (h : WellKept s.ledger)
    (he : e ∈ s.ledger) (hkind : e.kind = .ALLOCATION) :
    runAlone P (reverseEntry e.id) s = s.insert [e.reversal] := by
  simp only [runAlone, reverseEntry, await, Prog.runAlone_bind, Prog.runAlone_perform, Call.exec,
    Call.run, Fate.settle, h.find he, Prog.orThrow, Prog.runAlone_pure, Prog.runAlone_require,
    hkind, beq_self_eq_true, if_true]

/-- The reversal of an entry that is not reversed is written. -/
theorem insertEntry_reversal {ledger : List Entry} {e : Entry} (h : WellKept ledger)
    (he : e ∈ ledger) (hkind : e.kind = .ALLOCATION)
    (hfresh : isReversed ledger (some e.id) = false) :
    insertEntry ledger e.reversal = .ok (ledger ++ [⟨e.reversal, ledger.length⟩]) := by
  obtain ⟨hstored, hsigned⟩ := h.stored_reversal he hkind
  have hany : ¬ ledger.any (·.key == e.reversal.key) = true := by
    intro hany
    obtain ⟨x, hx, hkey⟩ := List.any_eq_true.mp hany
    have hrev := (h.isReversed_iff he hkind).mpr ⟨x, hx, by simpa using hkey⟩
    rw [hfresh] at hrev
    cases hrev
  rw [insertEntry, if_neg (by simp [hsigned]), if_neg hany, hstored]

/-- The loop reverses entries that are not reversed yet. -/
theorem runAlone_reverseAll {P : Platform} : ∀ {entries : List Entry} {s : FeeStore},
    WellKept s.ledger → (∀ e ∈ entries, e ∈ s.ledger ∧ e.kind = .ALLOCATION ∧
      isReversed s.ledger (some e.id) = false) → entries.Nodup →
      ∃ new : List Entry, runAlone P (Prog.forEach entries fun e => reverseEntry e.id) s =
        (.ok (), { s with ledger := s.ledger ++ new }) ∧
        new.map Entry.toEntryInput = entries.map Entry.reversal ∧ WellKept (s.ledger ++ new)
  | [], s, h, _, _ => ⟨[], by simp [runAlone, Prog.forEach], rfl, by rwa [List.append_nil]⟩
  | e :: entries, s, h, hall, hnodup => by
    obtain ⟨he, hkind, hfresh⟩ := hall e List.mem_cons_self
    obtain ⟨hnotin, hrest⟩ := List.nodup_cons.mp hnodup
    have hinsert := insertEntry_reversal h he hkind hfresh
    set row : Entry := ⟨e.reversal, s.ledger.length⟩ with hrow
    have hkept : WellKept (s.ledger ++ [row]) :=
      h.insertEntry (Or.inr ⟨e, he, hkind, rfl⟩) hinsert
    have hfirst : runAlone P (reverseEntry e.id) s =
        (.ok (), { s with ledger := s.ledger ++ [row] }) := by
      rw [runAlone_reverseEntry h he hkind]
      exact FeeStore.insert_ok ((insertEntries_singleton _ _).trans hinsert)
    have hassoc : ∀ new, (s.ledger ++ [row]) ++ new = s.ledger ++ row :: new := by simp
    obtain ⟨new, hnew, hmap, hwell⟩ := runAlone_reverseAll (P := P)
      (s := { s with ledger := s.ledger ++ [row] }) hkept (fun x hx => by
        obtain ⟨hxmem, hxkind, hxfresh⟩ := hall x (List.mem_cons_of_mem e hx)
        refine ⟨List.mem_append_left _ hxmem, hxkind, ?_⟩
        have hne : e.id ≠ x.id := fun hid => hnotin (h.eq_of_id he hxmem hid ▸ hx)
        rw [isReversed, List.any_append, ← isReversed, hxfresh]
        simp [hrow, Entry.reversal, hne]) hrest
    refine ⟨row :: new, ?_, by rw [List.map_cons, hmap, List.map_cons], hassoc new ▸ hwell⟩
    have hbind : runAlone P (Prog.forEach (e :: entries) fun e => reverseEntry e.id) s =
        runAlone P (Prog.forEach entries fun e => reverseEntry e.id)
          { s with ledger := s.ledger ++ [row] } := by
      rw [runAlone, Prog.forEach, Prog.runAlone_bind, ← runAlone, hfirst]
      rfl
    rw [hbind, hnew, hassoc]

/-- A first entry that is already reversed stops the loop. -/
theorem runAlone_reverseAll_taken {P : Platform} {e : Entry} {entries : List Entry} {s : FeeStore}
    (h : WellKept s.ledger) (he : e ∈ s.ledger) (hkind : e.kind = .ALLOCATION)
    (htaken : isReversed s.ledger (some e.id) = true) :
    runAlone P (Prog.forEach (e :: entries) fun e => reverseEntry e.id) s =
      (.error .uniqueConstraint, s) := by
  have hfirst : runAlone P (reverseEntry e.id) s = (.error .uniqueConstraint, s) := by
    rw [runAlone_reverseEntry h he hkind]
    exact FeeStore.insert_error (insertEntries_taken (h.stored_reversal he hkind).2
      ((h.isReversed_iff he hkind).mp htaken))
  rw [runAlone, Prog.forEach, Prog.runAlone_bind, ← runAlone, hfirst]

theorem apply_reverse (gens : ℕ → Generation) (g : ℕ) (ledger : List Entry) :
    (LedgerStep.reverseGeneration g).apply gens ledger =
      runAlone (gens g).platform
        (Prog.forEach (ledger.filter fun e => e.confirmationEvidenceId = g ∧ e.kind = .ALLOCATION)
          fun e => reverseEntry e.id) ((gens g).account g ledger) := by
  simp only [LedgerStep.apply, runAlone, Fees.reverseGeneration, await, Prog.runAlone_bind,
    Prog.runAlone_perform, Call.exec, Call.run, Fate.settle, Generation.account]

end Steps

/-! ## Runs -/

/-- The rows of a generation : none, those of the exact split, or those and their
reversals. -/
inductive Booked (gen : Generation) (g : ℕ) : List Entry → Prop
  | none : Booked gen g []
  | allocated {A : List Entry} (hd : gen.Divisible) (hA : A.map Entry.toEntryInput = gen.rows g) :
      Booked gen g A
  | reversed {A R : List Entry} (hd : gen.Divisible)
      (hA : A.map Entry.toEntryInput = gen.rows g)
      (hR : R.map Entry.toEntryInput = A.map Entry.reversal) : Booked gen g (A ++ R)

/-- Each generation is booked whole, reversed in part or in whole, or not at all. -/
structure InBooks (gens : ℕ → Generation) (ledger : List Entry) : Prop where
  wellKept : WellKept ledger
  rows : ∀ g, Booked (gens g) g (entriesOf ledger g)

/-- An allocation of a generation that is not in the ledger yet succeeds, and adds exactly its
shares : they sum to the fee in native units, rounded down. -/
def ExactStep (gens : ℕ → Generation) (ledger : List Entry) : LedgerStep → Prop
  | .allocate g => entriesOf ledger g = [] →
      ((LedgerStep.allocate g).apply gens ledger).1 = .ok () ∧
        ∃ new : List Entry, bookStep gens ledger (.allocate g) = ledger ++ new ∧
          new.map Entry.toEntryInput = (gens g).rows g ∧
          (new.map (·.amount)).sum = (gens g).collected ∧
          (gens g).collected ≤ (gens g).computedFee * 10 ^ (gens g).decimals
  | .reverseGeneration _ => True

/-- Every generation that is allocated can be divided. -/
def DivisibleStep (gens : ℕ → Generation) (_ : List Entry) : LedgerStep → Prop
  | .allocate g => (gens g).Divisible
  | .reverseGeneration _ => True

section Runs

variable {gens : ℕ → Generation} {ledger new : List Entry} {g : ℕ}

theorem entriesOf_append (g' : ℕ) (hnew : ∀ e ∈ new, e.confirmationEvidenceId = g) :
    entriesOf (ledger ++ new) g' = entriesOf ledger g' ++ if g' = g then new else [] := by
  rw [entriesOf, List.filter_append, ← entriesOf]
  split_ifs with h
  · rw [List.filter_eq_self.mpr fun e he => decide_eq_true ((hnew e he).trans h.symm)]
  · rw [List.filter_eq_nil_iff.mpr fun e he hg => h ((of_decide_eq_true hg).symm.trans (hnew e he))]

/-- Rows of one generation leave the others as they are. -/
theorem InBooks.append (h : InBooks gens ledger) (hkept : WellKept (ledger ++ new))
    (hnew : ∀ e ∈ new, e.confirmationEvidenceId = g)
    (hg : Booked (gens g) g (entriesOf ledger g ++ new)) : InBooks gens (ledger ++ new) := by
  refine ⟨hkept, fun g' => ?_⟩
  rw [entriesOf_append g' hnew]
  split_ifs with hgg
  · subst hgg
    exact hg
  · rw [List.append_nil]
    exact h.rows g'

theorem mem_rows {A : List Entry} {gen : Generation} (hp : gen.Published) (hd : gen.Divisible)
    (hA : A.map Entry.toEntryInput = gen.rows g) {e : Entry} (he : e ∈ A) :
    e.confirmationEvidenceId = g ∧ e.kind = .ALLOCATION := by
  have hmem : e.toEntryInput ∈ gen.rows g := hA ▸ List.mem_map_of_mem he
  exact (stored_rows hp hd _ hmem).2.2

theorem mem_reversals {A R : List Entry} (hR : R.map Entry.toEntryInput = A.map Entry.reversal)
    {r : Entry} (hr : r ∈ R) : ∃ e ∈ A, r.toEntryInput = e.reversal := by
  have hmem : r.toEntryInput ∈ A.map Entry.reversal := hR ▸ List.mem_map_of_mem hr
  obtain ⟨e, he, heq⟩ := List.mem_map.mp hmem
  exact ⟨e, he, heq.symm⟩

/-- The first allocation of a generation. -/
theorem InBooks.allocate_new (h : InBooks gens ledger) (hp : (gens g).Published)
    (hd : (gens g).Divisible) (hnone : entriesOf ledger g = []) :
    InBooks gens (bookStep gens ledger (.allocate g)) ∧ ExactStep gens ledger (.allocate g) := by
  have hfresh : ∀ i ∈ (gens g).rows g, ∀ x ∈ ledger, x.key ≠ i.key := by
    intro i hi x hx hkey
    have hg : x.confirmationEvidenceId = g :=
      (congrArg Prod.fst hkey).trans (stored_rows hp hd i hi).2.2.1
    have hmem : x ∈ entriesOf ledger g := List.mem_filter.mpr ⟨hx, decide_eq_true hg⟩
    rw [hnone] at hmem
    cases hmem
  obtain ⟨ledger', hinsert⟩ := insertEntries_fresh
    (fun i hi => (stored_rows hp hd i hi).2.1) (keys_rows hp) hfresh
  obtain ⟨⟨new, rfl, hnew⟩, -⟩ := insertEntries_ok hinsert
  have hstored : ((gens g).rows g).map EntryInput.stored = (gens g).rows g :=
    (List.map_congr_left fun i hi => (stored_rows hp hd i hi).1).trans (List.map_id _)
  rw [hstored] at hnew
  have happly : (LedgerStep.allocate g).apply gens ledger =
      (.ok (), { (gens g).account g ledger with ledger := ledger ++ new }) := by
    rw [apply_allocate hp hd]
    exact FeeStore.insert_ok (s := (gens g).account g ledger) hinsert
  have hbook : bookStep gens ledger (.allocate g) = ledger ++ new := by rw [bookStep, happly]
  constructor
  · rw [hbook]
    refine h.append (h.wellKept.insertEntries (fun i hi => Or.inl (stored_rows hp hd i hi).2.2.2)
      hinsert) (fun e he => (mem_rows hp hd hnew he).1) ?_
    rw [hnone, List.nil_append]
    exact .allocated hd hnew
  · intro _
    refine ⟨by rw [happly], new, hbook, hnew, ?_, ?_⟩
    · rw [← sum_rows (g := g) hp, ← hnew, List.map_map]
      rfl
    · have hfloor := Int.floor_le ((gens g).computedFee * 10 ^ (gens g).decimals)
      have hnonneg := Int.floor_nonneg.mpr hp.fee_nonneg
      rw [Generation.collected]
      have hcast : ((⌊(gens g).computedFee * 10 ^ (gens g).decimals⌋.toNat : ℕ) : ℚ) =
          (⌊(gens g).computedFee * 10 ^ (gens g).decimals⌋ : ℚ) := by
        exact_mod_cast Int.toNat_of_nonneg hnonneg
      rw [hcast]
      exact hfloor

/-- A second allocation of a generation is refused. -/
theorem allocate_again (hp : (gens g).Published) (hd : (gens g).Divisible) {A : List Entry} (hA : A.map Entry.toEntryInput = (gens g).rows g)
    (hmem : ∀ e ∈ A, e ∈ ledger) : bookStep gens ledger (.allocate g) = ledger := by
  cases hrows : (gens g).rows g with
  | nil => exact absurd hrows (rows_ne_nil hp)
  | cons i rest =>
    rw [hrows] at hA
    obtain ⟨e, A', rfl, hei, -⟩ := List.map_eq_cons_iff.mp hA
    have hi : i ∈ (gens g).rows g := by
      rw [hrows]
      exact List.mem_cons_self
    have htaken := @insertEntries_taken i rest _ (stored_rows hp hd i hi).2.1
      ⟨e, hmem e List.mem_cons_self, congrArg EntryInput.key hei⟩
    rw [bookStep, apply_allocate hp hd, hrows,
      FeeStore.insert_error (s := (gens g).account g ledger) htaken]
    rfl

/-- An allocation keeps the books and is exact. -/
theorem InBooks.allocate (h : InBooks gens ledger) (hp : (gens g).Published)
    (hd : (gens g).Divisible) :
    InBooks gens (bookStep gens ledger (.allocate g)) ∧ ExactStep gens ledger (.allocate g) := by
  by_cases hnone : entriesOf ledger g = []
  · exact h.allocate_new hp hd hnone
  · have hsame : bookStep gens ledger (.allocate g) = ledger := by
      have hsub : ∀ e ∈ entriesOf ledger g, e ∈ ledger := fun e he => (List.mem_filter.mp he).1
      have hrows := h.rows g
      generalize entriesOf ledger g = rows at hrows hsub hnone
      cases hrows with
      | none => exact absurd rfl hnone
      | allocated _ hA => exact allocate_again hp hd hA hsub
      | reversed _ hA _ =>
        exact allocate_again hp hd hA fun e he => hsub e (List.mem_append_left _ he)
    rw [hsame]
    exact ⟨h, fun hempty => absurd hempty hnone⟩

/-- The allocations of a generation are what the call lists. -/
theorem listed_eq (ledger : List Entry) (g : ℕ) :
    ledger.filter (fun e => e.confirmationEvidenceId = g ∧ e.kind = .ALLOCATION) =
      (entriesOf ledger g).filter (·.kind = .ALLOCATION) := by
  rw [entriesOf, List.filter_filter]
  exact List.filter_congr fun e _ => by
    by_cases h : e.confirmationEvidenceId = g <;> simp [h]

theorem filter_rows {A : List Entry} {gen : Generation} (hp : gen.Published)
    (hd : gen.Divisible) (hA : A.map Entry.toEntryInput = gen.rows g) :
    A.filter (·.kind = .ALLOCATION) = A :=
  List.filter_eq_self.mpr fun _ he => decide_eq_true (mem_rows hp hd hA he).2

theorem filter_reversals {A R : List Entry}
    (hR : R.map Entry.toEntryInput = A.map Entry.reversal) :
    R.filter (·.kind = .ALLOCATION) = [] := by
  refine List.filter_eq_nil_iff.mpr fun r hr hkind => ?_
  obtain ⟨e, -, heq⟩ := mem_reversals hR hr
  rw [decide_eq_true_eq, heq] at hkind
  cases hkind

/-- Every row of a reversed generation has its reversal. -/
theorem isReversed_of_reversals {A R entries : List Entry}
    (hR : R.map Entry.toEntryInput = A.map Entry.reversal) (hsub : ∀ r ∈ R, r ∈ entries)
    {e : Entry} (he : e ∈ A) : isReversed entries (some e.id) = true := by
  have hmem : e.reversal ∈ R.map Entry.toEntryInput := hR ▸ List.mem_map_of_mem he
  obtain ⟨r, hr, heq⟩ := List.mem_map.mp hmem
  refine List.any_eq_true.mpr ⟨r, hsub r hr, decide_eq_true ?_⟩
  rw [heq]
  exact ⟨rfl, rfl⟩

/-- A generation without reversals is not reversed. -/
theorem not_isReversed_of_rows {A : List Entry} {gen : Generation} (hp : gen.Published)
    (hd : gen.Divisible) (hA : A.map Entry.toEntryInput = gen.rows g) (h : WellKept ledger)
    (hrows : entriesOf ledger g = A) {e : Entry} (he : e ∈ A) :
    isReversed ledger (some e.id) = false := by
  have hledger : ∀ x ∈ A, x ∈ ledger := fun x hx =>
    (List.mem_filter.mp (show x ∈ entriesOf ledger g from hrows ▸ hx)).1
  by_contra hrev
  obtain ⟨r, hr, hre⟩ := List.any_eq_true.mp (Bool.eq_true_of_not_eq_false hrev)
  obtain ⟨hrkind, hrid⟩ := of_decide_eq_true hre
  obtain ⟨o, ho, -, hro⟩ := h.offsets r hr hrkind
  have hid : o.id = e.id := by
    rw [hro] at hrid
    exact Option.some.inj hrid
  have hrg : r.confirmationEvidenceId = g := by
    rw [hro, h.eq_of_id ho (hledger e he) hid]
    exact (mem_rows hp hd hA he).1
  have hrA : r ∈ A := hrows ▸ List.mem_filter.mpr ⟨hr, decide_eq_true hrg⟩
  have hkind := (mem_rows hp hd hA hrA).2
  rw [hrkind] at hkind
  cases hkind

/-- A reversal keeps the books. -/
theorem InBooks.reverse (h : InBooks gens ledger) (hp : (gens g).Published) :
    InBooks gens (bookStep gens ledger (.reverseGeneration g)) := by
  have hsub : ∀ e ∈ entriesOf ledger g, e ∈ ledger := fun e he => (List.mem_filter.mp he).1
  have hnodup : (entriesOf ledger g).Nodup :=
    (List.Nodup.of_map _ h.wellKept.keys).filter _
  have hrows := h.rows g
  rw [bookStep, apply_reverse, listed_eq]
  generalize hentries : entriesOf ledger g = entries at hrows hsub hnodup
  cases hrows with
  | none => exact h
  | allocated hd hA =>
    rw [filter_rows hp hd hA]
    obtain ⟨new, hrun, hmap, hwell⟩ := runAlone_reverseAll (P := (gens g).platform)
      (s := (gens g).account g ledger) h.wellKept (fun e he => ⟨hsub e he,
        (mem_rows hp hd hA he).2, not_isReversed_of_rows hp hd hA h.wellKept hentries he⟩) hnodup
    rw [hrun]
    have hnew : ∀ e ∈ new, e.confirmationEvidenceId = g := by
      intro r hr
      obtain ⟨e, he, heq⟩ := mem_reversals hmap hr
      rw [heq]
      exact (mem_rows hp hd hA he).1
    refine h.append hwell hnew ?_
    rw [hentries]
    exact .reversed hd hA hmap
  | @reversed A R hd hA hR =>
    rw [List.filter_append, filter_rows hp hd hA, filter_reversals hR, List.append_nil]
    cases A with
    | nil => exact h
    | cons e A =>
      have hmem : e ∈ e :: A := List.mem_cons_self
      rw [runAlone_reverseAll_taken (s := (gens g).account g ledger) h.wellKept
        (hsub e (List.mem_append_left _ hmem)) (mem_rows hp hd hA hmem).2
        (isReversed_of_reversals hR (fun r hr => hsub r (List.mem_append_right _ hr)) hmem)]
      exact h

theorem inBooks_nil : InBooks gens [] :=
  ⟨WellKept.nil, fun _ => .none⟩

/-! ### The reports are empty -/

/-- What the check expects is what was collected. -/
theorem expectedNative_eq {gen : Generation} (hp : gen.Published) (hd : gen.Divisible) :
    expectedNative gen.computedFee gen.decimals = gen.collected := by
  have hnative := native_eq_collected hp hd
  rw [toNativeUnits, toFixedText, decimalUnits_fixedText] at hnative
  rw [expectedNative, toFixedText, hnative, splitPoint_fixedText]
  have hvalue : natValue (padded gen.decimals (gen.collected % 10 ^ gen.decimals)) =
      gen.collected % 10 ^ gen.decimals := by rw [natValue_padded, Nat.mod_mod]
  simp only [padEnd_padded]
  split_ifs with hzero
  · have hdiv : gen.collected / 10 ^ gen.decimals = 0 := natText_injective hzero
    rw [List.nil_append, hvalue]
    have := Nat.div_add_mod gen.collected (10 ^ gen.decimals)
    rw [hdiv, mul_zero, zero_add] at this
    exact this
  · rw [natValue_append, natValue_natText, hvalue, length_padded]
    exact Nat.div_add_mod' gen.collected (10 ^ gen.decimals)

theorem amounts_rows {A : List Entry} {gen : Generation}
    (hA : A.map Entry.toEntryInput = gen.rows g) : A.map (·.amount) = gen.shares := by
  have hmap := congrArg (List.map EntryInput.amount) hA
  rw [List.map_map, Generation.rows, List.map_map] at hmap
  exact hmap

theorem amounts_reversals {A R : List Entry}
    (hR : R.map Entry.toEntryInput = A.map Entry.reversal) :
    R.map (·.amount) = (A.map (·.amount)).map Neg.neg := by
  have hmap := congrArg (List.map EntryInput.amount) hR
  rw [List.map_map, List.map_map] at hmap
  rw [List.map_map]
  exact hmap

/-- The report finds nothing in an allocated generation, whatever the order of its rows. -/
theorem no_mismatch_allocated {gen : Generation} (hp : gen.Published) (hd : gen.Divisible)
    {A l : List Entry} (hA : A.map Entry.toEntryInput = gen.rows g) (hl : l.Perm A) :
    generationMismatch gen g l = none := by
  have hperm : (l.map (·.amount)).Perm gen.shares := amounts_rows hA ▸ hl.map _
  have hnet : total (l.map (·.amount)) = gen.collected := by
    rw [total_eq_sum hd.digits (hperm.subperm.trans (List.sublist_append_left _ _).subperm),
      hperm.sum_eq, sum_shares hp]
  have hnot : fullyReversed l = false := by
    cases hrows : A with
    | nil =>
      rw [hrows] at hA
      exact absurd hA.symm (rows_ne_nil hp)
    | cons e A' =>
      have heA : e ∈ A := by rw [hrows]; exact List.mem_cons_self
      by_contra hfull
      have hall := List.all_eq_true.mp (Bool.eq_true_of_not_eq_false hfull) e
        (List.mem_filter.mpr ⟨hl.mem_iff.mpr heA, decide_eq_true (mem_rows hp hd hA heA).2⟩)
      obtain ⟨r, hr, hre⟩ := List.any_eq_true.mp hall
      have hkind := (mem_rows hp hd hA (hl.mem_iff.mp hr)).2
      rw [(of_decide_eq_true hre).1] at hkind
      cases hkind
  rw [generationMismatch, hnot, hp.supported]
  simp only
  rw [if_neg (by simp), expectedNative_eq hp hd, hnet, if_pos rfl]

/-- Nor in a reversed one. -/
theorem no_mismatch_reversed {gen : Generation} (hd : gen.Divisible)
    {A R l : List Entry} (hA : A.map Entry.toEntryInput = gen.rows g)
    (hR : R.map Entry.toEntryInput = A.map Entry.reversal) (hl : l.Perm (A ++ R)) :
    generationMismatch gen g l = none := by
  have hperm : (l.map (·.amount)).Perm (gen.shares ++ gen.shares.map Neg.neg) := by
    rw [← amounts_rows hA, ← amounts_reversals hR, ← List.map_append]
    exact hl.map _
  have hneg : (gen.shares.map Neg.neg).sum = -gen.shares.sum := (List.sum_neg _).symm
  have hnet : total (l.map (·.amount)) = 0 := by
    rw [total_eq_sum hd.digits hperm.subperm, hperm.sum_eq, List.sum_append, hneg,
      add_neg_cancel]
  have hfull : fullyReversed l = true := by
    refine List.all_eq_true.mpr fun e he => ?_
    obtain ⟨hel, hkind⟩ := List.mem_filter.mp he
    have heA : e ∈ A := by
      refine (List.mem_append.mp (hl.mem_iff.mp hel)).resolve_right fun heR => ?_
      obtain ⟨o, -, heq⟩ := mem_reversals hR heR
      rw [decide_eq_true_eq, heq] at hkind
      cases hkind
    exact isReversed_of_reversals hR
      (fun r hr => hl.mem_iff.mpr (List.mem_append_right _ hr)) heA
  rw [generationMismatch, hfull, hnet]
  simp

/-- In the books no generation has a wrong sum. -/
theorem InBooks.no_mismatch (h : InBooks gens ledger) (hp : ∀ g, (gens g).Published)
    {arrange : List Entry → List Entry} (harrange : ∀ l, (arrange l).Perm l) :
    findGenerationSumMismatches gens arrange ledger = [] := by
  refine List.filterMap_eq_nil_iff.mpr fun g hg => ?_
  have hg' := List.mem_dedup.mp hg
  obtain ⟨e, he, rfl⟩ := List.mem_map.mp hg'
  have hmem : e ∈ entriesOf ledger e.confirmationEvidenceId :=
    List.mem_filter.mpr ⟨(List.mem_filter.mp he).1, decide_eq_true rfl⟩
  have hrows := h.rows e.confirmationEvidenceId
  have hperm := harrange (entriesOf ledger e.confirmationEvidenceId)
  generalize entriesOf ledger e.confirmationEvidenceId = rows at hmem hrows hperm
  cases hrows with
  | none => cases hmem
  | allocated hd hA => exact no_mismatch_allocated (hp _) hd hA hperm
  | reversed hd hA hR => exact no_mismatch_reversed hd hA hR hperm

theorem WellKept.no_negative (h : WellKept ledger) : findNegativeRecipientBalances ledger = [] :=
  List.filter_eq_nil_iff.mpr fun group _ hneg =>
    absurd (h.balance_nonneg group) (not_le.mpr (of_decide_eq_true hneg))

theorem InBooks.step (h : InBooks gens ledger) (hp : ∀ g, (gens g).Published) {a : LedgerStep}
    (ha : DivisibleStep gens ledger a) :
    InBooks gens (bookStep gens ledger a) ∧ ExactStep gens ledger a := by
  cases a with
  | allocate g => exact h.allocate (hp g) ha
  | reverseGeneration g => exact ⟨h.reverse (hp g), trivial⟩

end Runs

/-- The split of a fee is exact : in every sequence of allocations and complete reversals in
which every allocated generation can be divided, each first allocation of a generation
succeeds with exactly the shares of the fee rounded down, no balance is negative, and the
reports are empty in whatever order the database gives the rows. -/
theorem split_exact (gens : ℕ → Generation) (hp : ∀ g, (gens g).Published)
    (as : List LedgerStep) (h : Steps.Along (bookStep gens) (DivisibleStep gens) [] as)
    (arrange : List Entry → List Entry) (harrange : ∀ l, (arrange l).Perm l) :
    Steps.Along (bookStep gens) (ExactStep gens) [] as ∧
      (∀ group, 0 ≤ balance (Steps.run (bookStep gens) [] as) group) ∧
      findGenerationSumMismatches gens arrange (Steps.run (bookStep gens) [] as) = [] ∧
      findNegativeRecipientBalances (Steps.run (bookStep gens) [] as) = [] := by
  have hend : InBooks gens (Steps.run (bookStep gens) [] as) :=
    h.invariant inBooks_nil fun _ _ hI hA => (hI.step hp hA).1
  exact ⟨h.imp inBooks_nil (fun _ _ hI hA => (hI.step hp hA).1)
      (fun _ _ hI hA => (hI.step hp hA).2),
    hend.wellKept.balance_nonneg, hend.no_mismatch hp harrange, hend.wellKept.no_negative⟩

/-! ## Fees of ordinary size -/

theorem decimal_neg (x : ℚ) : decimal (-x) = -decimal x := by
  rw [decimal, decimal, significant, significant]
  rcases lt_trichotomy x 0 with hlt | rfl | hgt
  · rw [if_pos (by linarith), if_neg (by linarith), neg_neg]
  · simp [significantNonneg]
  · rw [if_neg (by linarith), if_pos hgt.le, neg_neg]

/-- A number of units of the eighth place, of at most twenty digits, of either sign. -/
theorem decimal_intUnits {k : ℤ} (hk : |k| < 10 ^ 20) : decimal (k / 10 ^ 8) = k / 10 ^ 8 := by
  have hnat : decimal (ofUnits k.natAbs) = ofUnits k.natAbs := by
    refine decimal_ofUnits ?_
    rw [Int.abs_eq_natAbs] at hk
    exact_mod_cast hk
  rcases Int.natAbs_eq k with h | h
  · have hcast : (k : ℚ) / 10 ^ 8 = ofUnits k.natAbs := by
      rw [ofUnits, ← Int.cast_natCast, ← h]
    rw [hcast, hnat]
  · have hcast : (k : ℚ) / 10 ^ 8 = -ofUnits k.natAbs := by
      rw [ofUnits, ← Int.cast_natCast, ← neg_div, ← Int.cast_neg, ← h]
    rw [hcast, decimal_neg, hnat]

/-- A sum of signed whole units is one. -/
theorem exists_intUnits_sum : ∀ {l : List ℚ}, (∀ x ∈ l, ∃ k : ℤ, x = k / 10 ^ 8) →
    ∃ k : ℤ, l.sum = k / 10 ^ 8
  | [], _ => ⟨0, by simp⟩
  | x :: l, h => by
    obtain ⟨n, hn⟩ := h x List.mem_cons_self
    obtain ⟨m, hm⟩ := exists_intUnits_sum fun y hy => h y (List.mem_cons_of_mem x hy)
    refine ⟨n + m, ?_⟩
    rw [List.sum_cons, hn, hm]
    push_cast
    ring

/-- Below `5 · 10 ^ 11` native units every sum of shares of eight places has at most twenty
digits. -/
theorem digits_of_lt {gen : Generation} (hp : gen.Published)
    (hplaces : ∀ r ∈ gen.recipients, ∃ n : ℕ, gen.share r = ofUnits n)
    (hlt : gen.collected < 5 * 10 ^ 11) (l : List ℚ)
    (hl : l.Subperm (gen.shares ++ gen.shares.map Neg.neg)) : decimal l.sum = l.sum := by
  have hshare : ∀ x ∈ gen.shares, ∃ n : ℕ, x = ofUnits n := by
    intro x hx
    obtain ⟨r, hr, rfl⟩ := List.mem_map.mp hx
    exact hplaces r hr
  have hunits : ∀ x ∈ gen.shares ++ gen.shares.map Neg.neg, ∃ k : ℤ, x = k / 10 ^ 8 := by
    intro x hx
    rcases List.mem_append.mp hx with hx | hx
    · obtain ⟨n, rfl⟩ := hshare x hx
      exact ⟨n, by rw [ofUnits, Int.cast_natCast]⟩
    · obtain ⟨y, hy, rfl⟩ := List.mem_map.mp hx
      obtain ⟨n, rfl⟩ := hshare y hy
      exact ⟨-n, by rw [ofUnits, Int.cast_neg, Int.cast_natCast, neg_div]⟩
  have hbound : |l.sum| ≤ 2 * gen.collected := by
    have habs : ∀ x ∈ gen.shares, |x| = x := by
      intro x hx
      obtain ⟨n, rfl⟩ := hshare x hx
      exact abs_of_nonneg (by rw [ofUnits]; positivity)
    obtain ⟨l', hperm, hsub⟩ := hl
    calc |l.sum| ≤ (l.map abs).sum := List.le_sum_of_subadditive abs abs_zero.le abs_add_le l
      _ ≤ ((gen.shares ++ gen.shares.map Neg.neg).map abs).sum := by
        refine sum_le_of_subperm ⟨_, hperm.map abs, hsub.map abs⟩ fun x hx => ?_
        obtain ⟨y, -, rfl⟩ := List.mem_map.mp hx
        exact abs_nonneg y
      _ = gen.shares.sum + gen.shares.sum := by
        rw [List.map_append, List.sum_append, List.map_map]
        congr 1
        · rw [List.map_congr_left habs, List.map_id']
        · refine congrArg List.sum ((List.map_congr_left fun x hx => ?_).trans (List.map_id' _))
          rw [Function.comp_apply, abs_neg, habs x hx]
      _ = 2 * gen.collected := by rw [sum_shares hp, two_mul]
  obtain ⟨k, hk⟩ := exists_intUnits_sum fun x hx => hunits x (hl.subset hx)
  rw [hk]
  refine decimal_intUnits ?_
  rw [hk, abs_div, abs_of_pos (by positivity : (0 : ℚ) < 10 ^ 8),
    div_le_iff₀ (by positivity)] at hbound
  have hcollected : (gen.collected : ℚ) < 5 * 10 ^ 11 := by exact_mod_cast hlt
  have hlt' : (|k| : ℚ) < 10 ^ 20 := by linarith
  exact_mod_cast hlt'

/-- A hundredth of one bitcoin, shared 60 to 40. -/
def sampleGeneration : Generation where
  computedFee := 1 / 100
  asset := .BTC
  rail := []
  distributionPolicyVersionId := 1
  recipients := [⟨1, 60⟩, ⟨2, 40⟩]

/-- The policy of the sample is published. -/
theorem sampleGeneration_published : sampleGeneration.Published where
  supported := rfl
  fee := ⟨1000000, by norm_num [sampleGeneration, ofUnits]⟩
  weights := by
    intro r hr
    rcases List.mem_pair.mp hr with rfl | rfl
    · exact ⟨6000000000, by norm_num, by norm_num [ofUnits]⟩
    · exact ⟨4000000000, by norm_num, by norm_num [ofUnits]⟩
  whole := by norm_num [sampleGeneration]
  distinct := by decide

/-- The fee of the sample is divisible. -/
theorem sampleGeneration_divisible : sampleGeneration.Divisible := by
  have hcollected : sampleGeneration.collected = 1000000 := by decide +kernel
  have hplaces : ∀ r ∈ sampleGeneration.recipients,
      ∃ n : ℕ, sampleGeneration.share r = ofUnits n := by
    intro r hr
    rw [Generation.share, hcollected]
    rcases List.mem_pair.mp hr with rfl | rfl
    · exact ⟨60000000000000, by norm_num [ofUnits]⟩
    · exact ⟨40000000000000, by norm_num [ofUnits]⟩
  refine ⟨by decide +kernel, ?_, hplaces,
    digits_of_lt sampleGeneration_published hplaces ?_⟩ <;> rw [hcollected] <;> norm_num

/-- Two generations are allocated, and the first is reversed. -/
def sampleSequence : List LedgerStep := [.allocate 0, .reverseGeneration 0, .allocate 1]

/-- The sample sequence is exact at every step. -/
theorem split_exact_sample :
    Steps.Along (bookStep fun _ => sampleGeneration) (ExactStep fun _ => sampleGeneration) []
        sampleSequence ∧
      findNegativeRecipientBalances
        (Steps.run (bookStep fun _ => sampleGeneration) [] sampleSequence) = [] ∧
      (Steps.run (bookStep fun _ => sampleGeneration) [] sampleSequence).length = 6 := by
  have halong : Steps.Along (bookStep fun _ => sampleGeneration)
      (DivisibleStep fun _ => sampleGeneration) [] sampleSequence :=
    ⟨sampleGeneration_divisible, trivial, sampleGeneration_divisible, trivial⟩
  have hexact := split_exact (fun _ => sampleGeneration) (fun _ => sampleGeneration_published)
    sampleSequence halong id fun l => List.Perm.refl l
  exact ⟨hexact.1, hexact.2.2.2, by decide +kernel⟩

/-- One and a half native units of a token, for one recipient. -/
def roundedGeneration : Generation where
  computedFee := 150 / 10 ^ 8
  asset := .USDT_ERC20
  rail := []
  distributionPolicyVersionId := 1
  recipients := [⟨1, 100⟩]

/-- Two units are allocated from a fee of one and a half. -/
theorem split_rounded_up :
    ¬ ∀ (gens : ℕ → Generation), (∀ g, (gens g).Published) → ∀ (as : List LedgerStep)
      (arrange : List Entry → List Entry), (∀ l, (arrange l).Perm l) →
      Steps.Along (bookStep gens) (ExactStep gens) [] as ∧
        (∀ group, 0 ≤ balance (Steps.run (bookStep gens) [] as) group) ∧
        findGenerationSumMismatches gens arrange (Steps.run (bookStep gens) [] as) = [] ∧
        findNegativeRecipientBalances (Steps.run (bookStep gens) [] as) = [] := by
  intro h
  have hpublished : roundedGeneration.Published := by
    refine ⟨rfl, ⟨150, by norm_num [roundedGeneration, ofUnits]⟩, fun r hr => ?_,
      by norm_num [roundedGeneration], by decide⟩
    obtain rfl := List.mem_singleton.mp hr
    exact ⟨10000000000, by norm_num, by norm_num [ofUnits]⟩
  obtain ⟨-, new, hbook, hrows, -⟩ :=
    (h (fun _ => roundedGeneration) (fun _ => hpublished) [.allocate 0] id
      fun l => List.Perm.refl l).1.1 rfl
  rw [List.nil_append] at hbook
  rw [← hbook] at hrows
  exact absurd hrows (by decide +kernel)

end Sails.Fees
