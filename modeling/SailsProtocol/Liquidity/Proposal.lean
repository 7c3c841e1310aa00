import SailsProtocol.Liquidity.OrderBook
import SailsProtocol.Order.Search

/-!
# The best offer for an intent

`proposeForIntent` (`liquidity.service.ts`) fetches the best `MAX_PAGE_LIMIT` offers of the
other side by price and searches them for the first that the amount, the reputation and the
price limits admit, and, if there is none, for the first that only the price limit of the
caller's side excludes. Amounts and prices are compared as doubles.

`proposeForIntent_internal` : on the table it searches the first 50 rows of an answer.
`proposes_best_iff` : when what it finds is the best admissible offer of all.
-/

namespace Sails.Liquidity

open Numeric Paging

/-! ## The proposal -/

/-- What the intent limits its match to. -/
structure Limits where
  priceMin : Option ℚ
  priceMax : Option ℚ
  minReputation : Option ℚ
  deriving DecidableEq, Repr

/-- What the text of a counterproposal says. -/
structure Reasoning where
  offerId : String
  listedPriceUsd : ℚ
  boundName : String
  suggestedPriceUsd : ℚ
  deriving DecidableEq, Repr

/-- `CounterProposal`. -/
structure CounterProposal where
  referenceOfferId : String
  listedPriceUsd : ℚ
  suggestedPriceUsd : ℚ
  reasoning : Reasoning
  deriving DecidableEq, Repr

/-- What is proposed for an intent. -/
structure Proposal where
  match? : Option LiquidityOffer
  counterProposal : Option CounterProposal
  deriving DecidableEq, Repr

/-- The side of the offers that match an intent. -/
def counterSide (side : TradeSide) : TradeSide :=
  if side = .BUY then .SELL else .BUY

/-- Whether an offer fits the amount and the reputation. -/
def passesAmountAndReputation (amount : ℚ) (limits : Limits) (o : LiquidityOffer) : Bool :=
  decide (limits.minReputation.getD 0 ≤ o.traderReputation.getD 0) &&
    (decide (number o.minAmount ≤ number amount) && decide (number amount ≤ number o.maxAmount))

/-- Whether the price of an offer is within the limits. -/
def passesPrice (limits : Limits) (o : LiquidityOffer) : Bool :=
  let p := number o.priceUsd
  !(limits.priceMin.map number).any (fun priceMinNum => p < priceMinNum) &&
    !(limits.priceMax.map number).any (fun priceMaxNum => priceMaxNum < p)

/-- The price limit of the caller's side. -/
def relevantBound (side : TradeSide) (limits : Limits) : Option ℚ :=
  if side = .BUY then limits.priceMax else limits.priceMin

/-- Whether an offer misses by its price alone. -/
def isNearMiss (side : TradeSide) (amount : ℚ) (limits : Limits) (relevantBoundNum : ℚ)
    (o : LiquidityOffer) : Bool :=
  passesAmountAndReputation amount limits o &&
    (if side = .BUY then decide (relevantBoundNum < number o.priceUsd)
     else decide (number o.priceUsd < relevantBoundNum))

/-- The counter proposal for a near miss. -/
def counterProposalFor (side : TradeSide) (relevantBoundNum : ℚ) (nearMiss : LiquidityOffer) :
    CounterProposal :=
  { referenceOfferId := nearMiss.id
    listedPriceUsd := nearMiss.priceUsd
    suggestedPriceUsd := relevantBoundNum
    reasoning :=
      { offerId := nearMiss.id
        listedPriceUsd := nearMiss.priceUsd
        boundName := if side = .BUY then "maxPriceUsd" else "minPriceUsd"
        suggestedPriceUsd := relevantBoundNum } }

/-- The offers of the providers that answer. -/
def fetchCandidates (providers : List LiquidityProvider) (asset : AssetType) (side : TradeSide) :
    List LiquidityOffer :=
  providers.foldl (fun offers provider =>
    match provider.isAvailable with
    | .ok true =>
      match provider.getOffers asset side (some ⟨some MAX_PAGE_LIMIT, some 0⟩) none with
      | .ok found => offers ++ found
      | .error _ => offers
    | _ => offers) []

/-- `proposeForIntent`. -/
def proposeForIntent (providers : List LiquidityProvider) (asset : AssetType) (side : TradeSide)
    (amount : ℚ) (limits : Limits) : Proposal :=
  let offers := fetchCandidates providers asset (counterSide side)
  let sorted :=
    sortBy (if counterSide side = .SELL then compareByPriceAsc else compareByPriceDesc) offers
  match sorted.find? fun o => passesAmountAndReputation amount limits o && passesPrice limits o with
  | some fullMatch => ⟨some fullMatch, none⟩
  | none =>
    match (relevantBound side limits).map number with
    | none => ⟨none, none⟩
    | some relevantBoundNum =>
      match sorted.find? (isNearMiss side amount limits relevantBoundNum) with
      | none => ⟨none, none⟩
      | some nearMiss => ⟨none, some (counterProposalFor side relevantBoundNum nearMiss)⟩

/-! ## What is asked for -/

section Asked

variable (side : TradeSide) (amount : ℚ) (limits : Limits)

/-- The amount and the reputation are within their bounds. -/
def Suits (o : LiquidityOffer) : Prop :=
  limits.minReputation.getD 0 ≤ o.traderReputation.getD 0 ∧
    o.minAmount ≤ amount ∧ amount ≤ o.maxAmount

/-- The offer suits and its price is within the limits. -/
def Admissible (o : LiquidityOffer) : Prop :=
  Suits amount limits o ∧ (∀ m, limits.priceMin = some m → m ≤ o.priceUsd) ∧
    ∀ m, limits.priceMax = some m → o.priceUsd ≤ m

/-- The offer suits and its price is beyond the limit of the caller's side. -/
def NearMiss (o : LiquidityOffer) : Prop :=
  Suits amount limits o ∧ ∃ bound, relevantBound side limits = some bound ∧
    if side = .BUY then bound < o.priceUsd else o.priceUsd < bound

end Asked

variable {table : OfferTable} {asset : AssetType} {side : TradeSide} {amount : ℚ}
  {limits : Limits}

/-- The active offers of the other side. -/
abbrev OfferTable.candidates (table : OfferTable) (asset : AssetType) (side : TradeSide) :
    List OfferRow :=
  table.matching asset (counterSide side) none

/-- What is proposed is the best admissible offer, nothing is proposed only if there is
none, and a counterproposal then names the offer nearest to the limit. -/
structure ProposesBest (table : OfferTable) (asset : AssetType) (side : TradeSide) (amount : ℚ)
    (limits : Limits) (proposal : Proposal) : Prop where
  best : ∀ m, proposal.match? = some m →
    m ∈ (table.candidates asset side).map mapOfferToLiquidityOffer ∧ Admissible amount limits m ∧
      ∀ o ∈ (table.candidates asset side).map mapOfferToLiquidityOffer,
        Admissible amount limits o → NotWorse (counterSide side) m o
  none_admissible : proposal.match? = none →
    ∀ o ∈ (table.candidates asset side).map mapOfferToLiquidityOffer, ¬ Admissible amount limits o
  nearest : ∀ c, proposal.counterProposal = some c →
    (∀ o ∈ (table.candidates asset side).map mapOfferToLiquidityOffer,
      ¬ Admissible amount limits o) ∧
    ∃ o ∈ (table.candidates asset side).map mapOfferToLiquidityOffer,
      c.referenceOfferId = o.id ∧ c.listedPriceUsd = o.priceUsd ∧ NearMiss side amount limits o ∧
        ∀ o' ∈ (table.candidates asset side).map mapOfferToLiquidityOffer,
          NearMiss side amount limits o' → NotWorse (counterSide side) o o'

/-! ## The search -/

/-- The tests of the code, on a row. -/
def passes (amount : ℚ) (limits : Limits) (row : OfferRow) : Bool :=
  passesAmountAndReputation amount limits (mapOfferToLiquidityOffer row) &&
    passesPrice limits (mapOfferToLiquidityOffer row)

/-- Whether a row misses by its price alone. -/
def misses (side : TradeSide) (amount : ℚ) (limits : Limits) (row : OfferRow) : Bool :=
  ((relevantBound side limits).map number).any fun relevantBoundNum =>
    isNearMiss side amount limits relevantBoundNum (mapOfferToLiquidityOffer row)

theorem fetchCandidates_internal (reading : Reading table) :
    fetchCandidates [InternalOrderBook reading] asset side
      = ((reading.answer asset side none).take 50).map mapOfferToLiquidityOffer := by
  simp [fetchCandidates, InternalOrderBook, normalizePagination, Reading.findMany, MAX_PAGE_LIMIT,
    MAX_PROVIDER_FETCH]

/-- The sort leaves the order of the table. -/
theorem sortBy_candidates (reading : Reading table) (n : ℕ) :
    sortBy (if side = .SELL then compareByPriceAsc else compareByPriceDesc)
      (((reading.answer asset side none).take n).map mapOfferToLiquidityOffer)
      = ((reading.answer asset side none).take n).map mapOfferToLiquidityOffer := by
  have hside : (if side = .SELL then compareByPriceAsc else compareByPriceDesc)
      = if side = .BUY then compareByPriceDesc else compareByPriceAsc := by
    cases side <;> simp
  rw [hside]
  exact sortBy_answer reading n

/-- On the table, the first rows of the answer are searched. -/
theorem proposeForIntent_internal (reading : Reading table) :
    proposeForIntent [InternalOrderBook reading] asset side amount limits
      = match ((reading.answer asset (counterSide side) none).take 50).find?
          (passes amount limits) with
        | some x => ⟨some (mapOfferToLiquidityOffer x), none⟩
        | none =>
          ⟨none, (((reading.answer asset (counterSide side) none).take 50).find?
            (misses side amount limits)).map fun x =>
              counterProposalFor side (((relevantBound side limits).map number).getD 0)
                (mapOfferToLiquidityOffer x)⟩ := by
  rw [proposeForIntent, fetchCandidates_internal, sortBy_candidates, List.find?_map]
  have hpasses : (fun o => passesAmountAndReputation amount limits o && passesPrice limits o) ∘
      mapOfferToLiquidityOffer = passes amount limits := rfl
  rw [hpasses]
  rcases ((reading.answer asset (counterSide side) none).take 50).find? (passes amount limits)
    with _ | x
  · dsimp only [Option.map_none]
    rcases hbound : relevantBound side limits with _ | bound
    · have hnone : misses side amount limits = fun _ => false := by
        funext row
        rw [misses, hbound]
        rfl
      rw [hnone]
      simp
    · have hmisses : isNearMiss side amount limits (number bound) ∘ mapOfferToLiquidityOffer
          = misses side amount limits := by
        funext row
        rw [misses, hbound]
        rfl
      dsimp only [Option.map_some]
      rw [List.find?_map, hmisses]
      rcases ((reading.answer asset (counterSide side) none).take 50).find?
        (misses side amount limits) with _ | x <;> rfl
  · rfl

/-! ## When it finds the best -/

/-- If some offer is admissible, a best one passes the tests, none priced as well passes
them wrongly and fewer than fifty priced as well fail them. Otherwise none of the offers
within reach passes, and of those that miss by the limit alone the nearest is a near miss. -/
structure Searchable (table : OfferTable) (asset : AssetType) (side : TradeSide) (amount : ℚ)
    (limits : Limits) : Prop where
  found : (∃ x ∈ table.candidates asset side,
      Admissible amount limits (mapOfferToLiquidityOffer x)) →
    ∃ o ∈ table.candidates asset side, Admissible amount limits (mapOfferToLiquidityOffer o) ∧
      passes amount limits o = true ∧
      (∀ y ∈ table.candidates asset side, Admissible amount limits (mapOfferToLiquidityOffer y) →
        priceKey (counterSide side) o ≤ priceKey (counterSide side) y) ∧
      (∀ y ∈ table.candidates asset side, passes amount limits y = true →
        priceKey (counterSide side) y ≤ priceKey (counterSide side) o →
        Admissible amount limits (mapOfferToLiquidityOffer y)) ∧
      Paging.failing (priceKey (counterSide side)) (table.candidates asset side)
        (passes amount limits) o < 50
  none_passes : (∀ x ∈ table.candidates asset side,
      ¬ Admissible amount limits (mapOfferToLiquidityOffer x)) →
    ∀ x ∈ table.candidates asset side,
      Within (priceKey (counterSide side)) (table.candidates asset side) 50 x →
      passes amount limits x = false
  nearest : (∀ x ∈ table.candidates asset side,
      ¬ Admissible amount limits (mapOfferToLiquidityOffer x)) →
    ∀ x ∈ table.candidates asset side,
      Within (priceKey (counterSide side)) (table.candidates asset side) 50 x →
      misses side amount limits x = true →
      (∀ y ∈ table.candidates asset side, misses side amount limits y = true →
        priceKey (counterSide side) x ≤ priceKey (counterSide side) y) →
      NearMiss side amount limits (mapOfferToLiquidityOffer x) ∧
        ∀ y ∈ table.candidates asset side,
          NearMiss side amount limits (mapOfferToLiquidityOffer y) →
          priceKey (counterSide side) x ≤ priceKey (counterSide side) y

/-- An offer that is not worse is sorted no later. -/
theorem priceKey_le_of_notWorse {side : TradeSide} {x y : OfferRow}
    (h : NotWorse side (mapOfferToLiquidityOffer x) (mapOfferToLiquidityOffer y)) :
    priceKey side x ≤ priceKey side y := by
  have hscale : ∀ {u v : ℤ}, ofScale u ≤ ofScale v → u ≤ v := by
    intro u v hle
    have := (div_le_div_iff_of_pos_right (by norm_num : (0 : ℚ) < 10 ^ 8)).mp hle
    exact_mod_cast this
  rw [NotWorse] at h
  rw [priceKey, priceKey]
  split_ifs at h ⊢
  · exact hscale h
  · exact neg_le_neg (hscale h)

theorem OfferTable.eq_of_id {x y : OfferRow} (hx : x ∈ table.candidates asset side)
    (hy : y ∈ table.candidates asset side)
    (hid : (mapOfferToLiquidityOffer x).id = (mapOfferToLiquidityOffer y).id) : x = y :=
  List.inj_on_of_nodup_map table.nodup_ids (List.mem_of_mem_filter hx) (List.mem_of_mem_filter hy)
    hid

/-- A searchable table gives the best offer. -/
theorem best_of_searchable (h : Searchable table asset side amount limits)
    (reading : Reading table) :
    ProposesBest table asset side amount limits
      (proposeForIntent [InternalOrderBook reading] asset side amount limits) := by
  have ha := reading.arranges asset (counterSide side) none
  rw [proposeForIntent_internal]
  rcases hfind : ((reading.answer asset (counterSide side) none).take 50).find?
    (passes amount limits) with _ | x
  · -- nothing passes : no offer is admissible
    have hnone : ∀ x ∈ table.candidates asset side,
        ¬ Admissible amount limits (mapOfferToLiquidityOffer x) := by
      intro x hx hadm
      obtain ⟨o, ho, -, hpass, -, -, hfew⟩ := h.found ⟨x, hx, hadm⟩
      exact absurd (le_failing ha hfind ho hpass) (not_le.mpr hfew)
    have hnone' : ∀ o ∈ (table.candidates asset side).map mapOfferToLiquidityOffer,
        ¬ Admissible amount limits o := by
      intro o ho
      obtain ⟨x, hx, rfl⟩ := List.mem_map.mp ho
      exact hnone x hx
    refine ⟨fun m hm => (Option.some_ne_none m hm.symm).elim, fun _ => hnone',
      fun c hc => ⟨hnone', ?_⟩⟩
    obtain ⟨x, hmiss, rfl⟩ := Option.map_eq_some_iff.mp hc
    obtain ⟨hx, hmisses, hbest, hwithin⟩ := find_best ha hmiss
    obtain ⟨hnear, hnearest⟩ := h.nearest hnone x hx hwithin hmisses hbest
    refine ⟨_, List.mem_map_of_mem hx, rfl, rfl, hnear, fun o ho hother => ?_⟩
    obtain ⟨y, hy, rfl⟩ := List.mem_map.mp ho
    exact notWorse_of_priceKey (hnearest y hy hother)
  · obtain ⟨hx, hpass, hbest, hwithin⟩ := find_best ha hfind
    refine ⟨fun m hm => ?_, fun hm => (Option.some_ne_none _ hm).elim,
      fun c hc => (Option.some_ne_none c hc.symm).elim⟩
    obtain rfl := Option.some.inj hm
    have hsome : ∃ y ∈ table.candidates asset side,
        Admissible amount limits (mapOfferToLiquidityOffer y) := by
      by_contra hnone
      push Not at hnone
      exact absurd hpass (by simp [h.none_passes hnone x hx hwithin])
    obtain ⟨o, ho, -, hopass, hobest, hright, -⟩ := h.found hsome
    refine ⟨List.mem_map_of_mem hx, hright x hx hpass (hbest o ho hopass), fun p hp hadm => ?_⟩
    obtain ⟨y, hy, rfl⟩ := List.mem_map.mp hp
    exact notWorse_of_priceKey ((hbest o ho hopass).trans (hobest y hy hadm))

/-- A row that is best among those that pass, within reach, can be proposed. -/
theorem exists_match {x : OfferRow} (hx : x ∈ table.candidates asset side)
    (hpass : passes amount limits x = true)
    (hbest : ∀ y ∈ table.candidates asset side, passes amount limits y = true →
      priceKey (counterSide side) x ≤ priceKey (counterSide side) y)
    (hwithin : Within (priceKey (counterSide side)) (table.candidates asset side) 50 x) :
    ∃ reading : Reading table,
      (proposeForIntent [InternalOrderBook reading] asset side amount limits).match?
        = some (mapOfferToLiquidityOffer x) := by
  obtain ⟨a, ha, hfind⟩ := exists_find hx hpass hbest hwithin
  refine ⟨Reading.of a ha, ?_⟩
  rw [proposeForIntent_internal, Reading.of_answer, hfind]

/-- If nothing is admissible and no row within reach passes, a row that is best among those
that miss, within reach, can be named. -/
theorem exists_counterProposal {x : OfferRow}
    (hnone : ∀ y ∈ table.candidates asset side,
      Within (priceKey (counterSide side)) (table.candidates asset side) 50 y →
      passes amount limits y = false)
    (hx : x ∈ table.candidates asset side) (hmisses : misses side amount limits x = true)
    (hbest : ∀ y ∈ table.candidates asset side, misses side amount limits y = true →
      priceKey (counterSide side) x ≤ priceKey (counterSide side) y)
    (hwithin : Within (priceKey (counterSide side)) (table.candidates asset side) 50 x) :
    ∃ (reading : Reading table) (c : CounterProposal),
      (proposeForIntent [InternalOrderBook reading] asset side amount limits).counterProposal
        = some c ∧ c.referenceOfferId = x.id := by
  obtain ⟨a, ha, hfind⟩ := exists_find hx hmisses hbest hwithin
  refine ⟨Reading.of a ha, counterProposalFor side
    (((relevantBound side limits).map number).getD 0) (mapOfferToLiquidityOffer x), ?_, rfl⟩
  have hnot : (a.take 50).find? (passes amount limits) = none := by
    rcases hpass : (a.take 50).find? (passes amount limits) with _ | y
    · rfl
    · obtain ⟨hy, hpassy, -, hwithiny⟩ := find_best ha hpass
      rw [hnone y hy hwithiny] at hpassy
      cases hpassy
  rw [proposeForIntent_internal, Reading.of_answer, hnot, hfind]
  rfl

/-- A table that gives the best offer is searchable. -/
theorem searchable_of_best
    (h : ∀ reading : Reading table, ProposesBest table asset side amount limits
      (proposeForIntent [InternalOrderBook reading] asset side amount limits)) :
    Searchable table asset side amount limits := by
  have hmatch : ∀ x ∈ table.candidates asset side, passes amount limits x = true →
      (∀ y ∈ table.candidates asset side, passes amount limits y = true →
        priceKey (counterSide side) x ≤ priceKey (counterSide side) y) →
      Within (priceKey (counterSide side)) (table.candidates asset side) 50 x →
      Admissible amount limits (mapOfferToLiquidityOffer x) ∧
        ∀ y ∈ table.candidates asset side,
          Admissible amount limits (mapOfferToLiquidityOffer y) →
          priceKey (counterSide side) x ≤ priceKey (counterSide side) y := by
    intro x hx hpass hbest hwithin
    obtain ⟨reading, hreading⟩ := exists_match hx hpass hbest hwithin
    obtain ⟨-, hadm, hall⟩ := (h reading).best _ hreading
    exact ⟨hadm, fun y hy hy' =>
      priceKey_le_of_notWorse (hall _ (List.mem_map_of_mem hy) hy')⟩
  have hnone : (∀ x ∈ table.candidates asset side,
        ¬ Admissible amount limits (mapOfferToLiquidityOffer x)) →
      ∀ x ∈ table.candidates asset side,
        Within (priceKey (counterSide side)) (table.candidates asset side) 50 x →
        passes amount limits x = false := by
    intro hno x hx hwithin
    by_contra hpass
    rw [Bool.not_eq_false] at hpass
    obtain ⟨z, hz, hzpass, hzbest⟩ :=
      @exists_best _ _ _ (priceKey (counterSide side)) _ _ _ hx hpass
    exact hno z hz (hmatch z hz hzpass hzbest (hwithin.of_le (hzbest x hx hpass))).1
  refine ⟨fun ⟨y, hy, hadm⟩ => ?_, hnone, fun hno x hx hwithin hmisses hbest => ?_⟩
  · -- some row is found in every arrangement, since in none nothing is found
    obtain ⟨z, hz, hzpass, hfew⟩ : ∃ z ∈ table.candidates asset side,
        passes amount limits z = true ∧ Paging.failing (priceKey (counterSide side))
          (table.candidates asset side) (passes amount limits) z < 50 := by
      by_contra hmany
      push Not at hmany
      obtain ⟨a, ha, hfind⟩ := exists_find_none hmany
      have hbest := h (Reading.of a ha)
      rw [proposeForIntent_internal, Reading.of_answer, hfind] at hbest
      exact hbest.none_admissible rfl _ (List.mem_map_of_mem hy) hadm
    have ha := arranges_mergeSort (priceKey (counterSide side)) (table.candidates asset side)
    obtain ⟨o, hfind⟩ := exists_find_of_few ha hz hzpass hfew
    obtain ⟨ho, hpass, hbest, hwithin⟩ := find_best ha hfind
    obtain ⟨hoadm, hall⟩ := hmatch o ho hpass hbest hwithin
    have hofew := (failing_mono (hbest z hz hzpass)).trans_lt hfew
    refine ⟨o, ho, hoadm, hpass, hall, fun u hu hupass hle => ?_, hofew⟩
    exact (hmatch u hu hupass (fun v hv hvpass => hle.trans (hbest v hv hvpass))
      (hwithin.of_le hle)).1
  · obtain ⟨reading, c, hc, hid⟩ := exists_counterProposal (hnone hno) hx hmisses hbest hwithin
    obtain ⟨-, p, hp, hpid, -, hnear, hnearest⟩ := (h reading).nearest c hc
    obtain ⟨y, hy, rfl⟩ := List.mem_map.mp hp
    obtain rfl : x = y := OfferTable.eq_of_id hx hy (hid.symm.trans hpid)
    exact ⟨hnear, fun v hv hv' =>
      priceKey_le_of_notWorse (hnearest _ (List.mem_map_of_mem hv) hv')⟩

/-- The best admissible offer is proposed, however ties are arranged, exactly when the
search can find it. -/
theorem proposes_best_iff (table : OfferTable) (asset : AssetType) (side : TradeSide)
    (amount : ℚ) (limits : Limits) :
    (∀ reading : Reading table, ProposesBest table asset side amount limits
      (proposeForIntent [InternalOrderBook reading] asset side amount limits)) ↔
      Searchable table asset side amount limits :=
  ⟨searchable_of_best, best_of_searchable⟩

/-- An offer to sell one unit for one dollar. -/
def cheapOffer (n : ℕ) : OfferRow :=
  ⟨String.ofList (List.replicate n 'a'), .BTC, .SELL, 10 ^ 8, 0, 10 ^ 8, .PIX, .ACTIVE, 0⟩

/-- An offer to sell ten units for two dollars each. -/
def largeOffer : OfferRow :=
  ⟨"b", .BTC, .SELL, 2 * 10 ^ 8, 0, 10 * 10 ^ 8, .PIX, .ACTIVE, 0⟩

/-- Fifty small offers and a large one. -/
def crowdedTable : OfferTable where
  rows := (List.range 50).map cheapOffer ++ [largeOffer]
  nodup_ids := by
    rw [List.map_append, List.map_map]
    refine List.Nodup.append (List.nodup_range.map ?_) (List.nodup_singleton _) ?_
    · intro m n h
      have := congrArg List.length (String.ofList_injective h)
      simpa using this
    · intro s hs hb
      obtain ⟨n, -, rfl⟩ := List.mem_map.mp hs
      have := String.ofList_injective (List.mem_singleton.mp hb)
      cases n <;> simp [List.replicate] at this

/-- The large offer is the last candidate. -/
theorem crowdedTable_candidates :
    crowdedTable.candidates .BTC .BUY = (List.range 50).map cheapOffer ++ [largeOffer] := by
  refine List.filter_eq_self.mpr fun row hrow => ?_
  rcases List.mem_append.mp hrow with hrow | hrow
  · obtain ⟨n, -, rfl⟩ := List.mem_map.mp hrow
    rfl
  · rw [List.mem_singleton.mp hrow]
    rfl

/-- The large offer is the only one for five units, and out of reach. -/
theorem large_offer_missed :
    ¬ ∀ (table : OfferTable) (asset : AssetType) (side : TradeSide) (amount : ℚ)
        (limits : Limits) (reading : Reading table),
        ProposesBest table asset side amount limits
          (proposeForIntent [InternalOrderBook reading] asset side amount limits) := by
  intro h
  have hsearchable := searchable_of_best (h crowdedTable .BTC .BUY 5 ⟨none, none, none⟩)
  have hfound := hsearchable.found
  rw [crowdedTable_candidates] at hfound
  have hlarge : Admissible 5 ⟨none, none, none⟩ (mapOfferToLiquidityOffer largeOffer) := by
    refine ⟨⟨le_rfl, ?_, ?_⟩, nofun, nofun⟩ <;>
      norm_num [mapOfferToLiquidityOffer, largeOffer, ofScale]
  have hcheap : ∀ n, (mapOfferToLiquidityOffer (cheapOffer n)).maxAmount = 1 := fun n => by
    norm_num [mapOfferToLiquidityOffer, cheapOffer, ofScale]
  obtain ⟨o, ho, hadm, -, -, -, hfew⟩ :=
    hfound ⟨largeOffer, List.mem_append_right _ List.mem_cons_self, hlarge⟩
  obtain rfl : o = largeOffer := by
    rcases List.mem_append.mp ho with ho | ho
    · obtain ⟨n, -, rfl⟩ := List.mem_map.mp ho
      have := hadm.1.2.2
      rw [hcheap n] at this
      norm_num at this
    · exact List.mem_singleton.mp ho
  -- the fifty small offers are cheaper and fail the test
  have hone : number 1 = 1 := by simpa using number_natCast (n := 1) (by norm_num)
  have hfive : number 5 = 5 := by simpa using number_natCast (n := 5) (by norm_num)
  have hfail : ∀ n, passes 5 ⟨none, none, none⟩ (cheapOffer n) = false := by
    intro n
    rw [passes, passesAmountAndReputation, hcheap n, hone, hfive,
      decide_eq_false (p := (5 : ℚ) ≤ 1) (by norm_num)]
    simp
  have hfifty := @length_le_failing _ _ _ (priceKey .SELL) _ _ _ largeOffer
    (List.sublist_append_left ((List.range 50).map cheapOffer) [largeOffer]) fun y hy => by
      obtain ⟨n, -, rfl⟩ := List.mem_map.mp hy
      have hcheaper : priceKey .SELL (cheapOffer n) ≤ priceKey .SELL largeOffer := by
        norm_num [priceKey, cheapOffer, largeOffer]
      exact ⟨hfail n, hcheaper⟩
  rw [List.length_map, List.length_range] at hfifty
  exact absurd hfew (not_lt.mpr hfifty)

end Sails.Liquidity
