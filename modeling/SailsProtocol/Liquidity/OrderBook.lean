import SailsProtocol.Numeric.Number
import SailsProtocol.Offer.Envelope
import SailsProtocol.Order.Paging

/-!
# Paging through the order book

`getAggregatedOffers` (`liquidity.service.ts`) asks each provider for its best
`offset + limit` offers, at most `MAX_PROVIDER_FETCH`, sorts them again and cuts out the
page. Whether there is more is decided by a count that has no such bound. The one provider
is the table of offers. A query answers with the matching rows by price, rows of equal price
in an order of its own (`Reading`).

* `sortBy_answer` : the second sort, by prices as doubles, changes nothing;
* `getAggregatedOffers_page` : a page is one of `Paging.pages` of the answers;
* `paging_complete` : which tables, filters and page limits are read completely.
-/

namespace Sails.Liquidity

open Numeric Paging

export Sails.Offer (AssetType TradeSide PaymentMethod)

/-! ## Offers -/

/-- `OfferStatus`. -/
inductive OfferStatus where
  | ACTIVE | PAUSED | COMPLETED | CANCELLED
  deriving DecidableEq, Repr

/-- A row of the table with its owner's score. Amounts are in units of the scale, 10⁻⁸. -/
structure OfferRow where
  id : String
  asset : AssetType
  side : TradeSide
  priceUsd : ℤ
  minAmount : ℤ
  maxAmount : ℤ
  paymentMethod : PaymentMethod
  status : OfferStatus
  reputationScore : ℚ
  deriving DecidableEq, Repr

/-- The table : no two rows have one id. -/
structure OfferTable where
  rows : List OfferRow
  nodup_ids : (rows.map OfferRow.id).Nodup

/-- An offer as it is shown. A decimal text stands for the number it spells. -/
structure LiquidityOffer where
  id : String
  source : String
  asset : AssetType
  side : TradeSide
  priceUsd : ℚ
  minAmount : ℚ
  maxAmount : ℚ
  paymentMethods : List PaymentMethod
  traderReputation : Option ℚ
  deriving DecidableEq, Repr

/-- The page that is asked for. -/
structure OfferPagination where
  limit : Option ℤ
  offset : Option ℤ

/-- A bound that is left out, or empty, is `none`. -/
structure OfferFilters where
  paymentMethod : Option PaymentMethod
  priceMin : Option ℚ
  priceMax : Option ℚ
  deriving DecidableEq

/-- `DEFAULT_PAGE_LIMIT`. -/
def DEFAULT_PAGE_LIMIT : ℤ := 10

/-- `MAX_PAGE_LIMIT`. -/
def MAX_PAGE_LIMIT : ℤ := 50

/-- `MAX_PROVIDER_FETCH`. -/
def MAX_PROVIDER_FETCH : ℤ := 500

/-- The limit and the offset. -/
def normalizePagination (pagination : Option OfferPagination) (maxLimit : ℤ) : ℤ × ℤ :=
  (min (max ((pagination.bind OfferPagination.limit).getD DEFAULT_PAGE_LIMIT) 1) maxLimit,
   max ((pagination.bind OfferPagination.offset).getD 0) 0)

/-- `compareByPriceDesc`. -/
def compareByPriceDesc (a b : LiquidityOffer) : ℚ :=
  number (number b.priceUsd - number a.priceUsd)

/-- `compareByPriceAsc`. -/
def compareByPriceAsc (a b : LiquidityOffer) : ℚ :=
  number (number a.priceUsd - number b.priceUsd)

/-- The number of an amount of eight places. -/
def ofScale (units : ℤ) : ℚ := units / 10 ^ 8

/-- `mapOfferToLiquidityOffer`. -/
def mapOfferToLiquidityOffer (offer : OfferRow) : LiquidityOffer :=
  { id := offer.id
    source := "internal"
    asset := offer.asset
    side := offer.side
    priceUsd := ofScale offer.priceUsd
    minAmount := ofScale offer.minAmount
    maxAmount := ofScale offer.maxAmount
    paymentMethods := [offer.paymentMethod]
    traderReputation := some offer.reputationScore }

/-- The rows `buildOfferWhere` selects. -/
def buildOfferWhere (asset : AssetType) (side : TradeSide) (filters : Option OfferFilters)
    (offer : OfferRow) : Bool :=
  offer.asset = asset && offer.side = side && offer.status = .ACTIVE &&
    (match filters.bind OfferFilters.paymentMethod with
      | none => true
      | some method => offer.paymentMethod = method) &&
    (match filters.bind OfferFilters.priceMin with
      | none => true
      | some priceMin => decide (priceMin ≤ ofScale offer.priceUsd)) &&
    (match filters.bind OfferFilters.priceMax with
      | none => true
      | some priceMax => decide (ofScale offer.priceUsd ≤ priceMax))

/-- The price in the direction of the side : lower comes first. -/
def priceKey (side : TradeSide) (offer : OfferRow) : ℤ :=
  if side = .SELL then offer.priceUsd else -offer.priceUsd

/-- The offers a query is about. -/
def OfferTable.matching (table : OfferTable) (asset : AssetType) (side : TradeSide)
    (filters : Option OfferFilters) : List OfferRow :=
  table.rows.filter (buildOfferWhere asset side filters)

/-- The answers to the queries of one request : the rows a query selects, `orderBy` the
price. -/
structure Reading (table : OfferTable) where
  answer : AssetType → TradeSide → Option OfferFilters → List OfferRow
  arranges : ∀ asset side filters,
    Arranges (priceKey side) (table.matching asset side filters) (answer asset side filters)

/-! ## Providers -/

/-- What a provider throws. -/
inductive ProviderError where
  | failed
  deriving DecidableEq, Repr

/-- A source of offers, at one request. -/
structure LiquidityProvider where
  name : String
  isAvailable : Except ProviderError Bool
  getOffers : AssetType → TradeSide → Option OfferPagination → Option OfferFilters →
    Except ProviderError (List LiquidityOffer)
  countOffers : AssetType → TradeSide → Option OfferFilters → Except ProviderError ℕ

variable {table : OfferTable}

/-- `take` and `skip` of the rows a query selects. -/
def Reading.findMany (reading : Reading table) (asset : AssetType) (side : TradeSide)
    (filters : Option OfferFilters) (limit offset : ℤ) : List OfferRow :=
  ((reading.answer asset side filters).drop offset.toNat).take limit.toNat

/-- The provider over the table of offers. -/
def InternalOrderBook (reading : Reading table) : LiquidityProvider where
  name := "internal"
  isAvailable := .ok true
  getOffers asset side pagination filters :=
    let (limit, offset) := normalizePagination pagination MAX_PROVIDER_FETCH
    .ok ((reading.findMany asset side filters limit offset).map mapOfferToLiquidityOffer)
  countOffers asset side filters := .ok (table.matching asset side filters).length

/-- The offers of the providers that answer, and their names. -/
def collectFromProviders (providers : List LiquidityProvider) (asset : AssetType)
    (side : TradeSide) (filters : Option OfferFilters) (neededCount : ℤ) :
    List LiquidityOffer × List String :=
  providers.foldl (fun (offers, sources) provider =>
    match provider.isAvailable with
    | .ok true =>
      match provider.getOffers asset side (some ⟨some neededCount, some 0⟩) filters with
      | .ok found => (offers ++ found, sources ++ [provider.name])
      | .error _ => (offers, sources)
    | _ => (offers, sources)) ([], [])

/-- `countAcrossProviders`. -/
def countAcrossProviders (providers : List LiquidityProvider) (asset : AssetType)
    (side : TradeSide) (filters : Option OfferFilters) : ℕ :=
  providers.foldl (fun total provider =>
    match provider.isAvailable with
    | .ok true =>
      match provider.countOffers asset side filters with
      | .ok count => total + count
      | .error _ => total
    | _ => total) 0

/-- `sort(compare)`, which is stable. -/
def sortBy (compare : LiquidityOffer → LiquidityOffer → ℚ) (offers : List LiquidityOffer) :
    List LiquidityOffer :=
  offers.mergeSort fun a b => decide (compare a b ≤ 0)

/-- A page of offers. -/
structure AggregatedOffers where
  offers : List LiquidityOffer
  sources : List String
  total : ℕ
  hasMore : Bool
  deriving DecidableEq, Repr

/-- A page of the offers of all providers. -/
def getAggregatedOffers (providers : List LiquidityProvider) (asset : AssetType)
    (side : TradeSide) (pagination : Option OfferPagination) (filters : Option OfferFilters) :
    AggregatedOffers :=
  let (limit, offset) := normalizePagination pagination MAX_PAGE_LIMIT
  let neededCount := offset + limit
  let (all, sources) := collectFromProviders providers asset side filters neededCount
  let total := countAcrossProviders providers asset side filters
  let sorted := sortBy (if side = .BUY then compareByPriceDesc else compareByPriceAsc) all
  { offers := (sorted.take (offset + limit).toNat).drop offset.toNat
    sources
    total
    hasMore := offset + limit < total }

/-! ## A page of the table -/

variable {asset : AssetType} {side : TradeSide} {filters : Option OfferFilters}

theorem ofScale_mono : Monotone ofScale := fun a b h => by
  have : (a : ℚ) ≤ b := by exact_mod_cast h
  exact div_le_div_of_nonneg_right this (by norm_num)

/-- The price of a row in the direction of the side, as an offer shows it. -/
def NotWorse (side : TradeSide) (a b : LiquidityOffer) : Prop :=
  if side = .SELL then a.priceUsd ≤ b.priceUsd else b.priceUsd ≤ a.priceUsd

theorem notWorse_of_priceKey {x y : OfferRow} (h : priceKey side x ≤ priceKey side y) :
    NotWorse side (mapOfferToLiquidityOffer x) (mapOfferToLiquidityOffer y) := by
  rw [priceKey, priceKey] at h
  rw [NotWorse]
  split_ifs at h ⊢
  · exact ofScale_mono h
  · exact ofScale_mono (neg_le_neg_iff.mp h)

/-- The comparison of a side puts no worse price before a better one. -/
theorem compare_nonpos {a b : LiquidityOffer} (h : NotWorse side a b) :
    (if side = .BUY then compareByPriceDesc else compareByPriceAsc) a b ≤ 0 := by
  rw [NotWorse] at h
  cases side
  · rw [if_neg (by decide)] at h
    rw [if_pos rfl]
    exact number_sub_nonpos h
  · rw [if_pos rfl] at h
    rw [if_neg (by decide)]
    exact number_sub_nonpos h

/-- The offers of an answer are sorted as they are. -/
theorem sortBy_answer (reading : Reading table) (n : ℕ) :
    sortBy (if side = .BUY then compareByPriceDesc else compareByPriceAsc)
      (((reading.answer asset side filters).take n).map mapOfferToLiquidityOffer)
      = ((reading.answer asset side filters).take n).map mapOfferToLiquidityOffer := by
  refine List.mergeSort_of_pairwise (List.pairwise_map.mpr ?_)
  have hsorted := (reading.arranges asset side filters).sorted.sublist (List.take_sublist n _)
  exact hsorted.imp fun h => decide_eq_true (compare_nonpos (notWorse_of_priceKey h))

theorem collectFromProviders_internal (reading : Reading table) (neededCount : ℤ) :
    collectFromProviders [InternalOrderBook reading] asset side filters neededCount
      = (((reading.answer asset side filters).take
          (min (max neededCount 1) MAX_PROVIDER_FETCH).toNat).map mapOfferToLiquidityOffer,
        ["internal"]) := by
  simp [collectFromProviders, InternalOrderBook, normalizePagination, Reading.findMany]

theorem countAcrossProviders_internal (reading : Reading table) :
    countAcrossProviders [InternalOrderBook reading] asset side filters
      = (table.matching asset side filters).length := by
  simp [countAcrossProviders, InternalOrderBook]

/-- The page limit in use. -/
def pageLimit (limit : Option ℤ) : ℤ :=
  min (max (limit.getD DEFAULT_PAGE_LIMIT) 1) MAX_PAGE_LIMIT

/-- The request for page `k`, at `k` times the page limit asked for. -/
def pageRequest (limit : Option ℤ) (k : ℕ) : Option OfferPagination :=
  some ⟨limit, some (k * limit.getD DEFAULT_PAGE_LIMIT)⟩

/-- Page `k` of a reader, each page from answers of its own. -/
def page (readings : ℕ → Reading table) (asset : AssetType) (side : TradeSide)
    (filters : Option OfferFilters) (limit : Option ℤ) (k : ℕ) : AggregatedOffers :=
  getAggregatedOffers [InternalOrderBook (readings k)] asset side (pageRequest limit k) filters

theorem pageLimit_bounds (limit : Option ℤ) :
    0 < (pageLimit limit).toNat ∧ (pageLimit limit).toNat ≤ 50 := by
  simp only [pageLimit, MAX_PAGE_LIMIT]
  omega

/-- The limit and the offset of a page. -/
theorem normalizePagination_pageRequest (limit : Option ℤ) (k : ℕ) :
    normalizePagination (pageRequest limit k) MAX_PAGE_LIMIT
      = (((pageLimit limit).toNat : ℤ),
        ((k * (limit.getD DEFAULT_PAGE_LIMIT).toNat : ℕ) : ℤ)) := by
  have hlimit : pageLimit limit = ((pageLimit limit).toNat : ℤ) := by
    have := (pageLimit_bounds limit).1
    omega
  have hoffset : max ((k : ℤ) * limit.getD DEFAULT_PAGE_LIMIT) 0
      = ((k * (limit.getD DEFAULT_PAGE_LIMIT).toNat : ℕ) : ℤ) := by
    generalize limit.getD DEFAULT_PAGE_LIMIT = step
    rcases le_total 0 step with hstep | hstep
    · rw [max_eq_left (by positivity), Nat.cast_mul, Int.toNat_of_nonneg hstep]
    · rw [max_eq_right (mul_nonpos_of_nonneg_of_nonpos (by positivity) hstep),
        Int.toNat_of_nonpos hstep, mul_zero, Nat.cast_zero]
  rw [← hlimit, ← hoffset]
  rfl

/-- A page of the table is a page of the answer. -/
theorem getAggregatedOffers_page (readings : ℕ → Reading table) (limit : Option ℤ) (k : ℕ) :
    page readings asset side filters limit k
      = ⟨(pages 500 (limit.getD DEFAULT_PAGE_LIMIT).toNat (pageLimit limit).toNat
            (table.matching asset side filters).length
            (fun k => (readings k).answer asset side filters) k).1.map mapOfferToLiquidityOffer,
          ["internal"], (table.matching asset side filters).length,
          (pages 500 (limit.getD DEFAULT_PAGE_LIMIT).toNat (pageLimit limit).toNat
            (table.matching asset side filters).length
            (fun k => (readings k).answer asset side filters) k).2⟩ := by
  rw [page, getAggregatedOffers, normalizePagination_pageRequest]
  set lim := (pageLimit limit).toNat
  set offset := k * (limit.getD DEFAULT_PAGE_LIMIT).toNat
  have hpos : 0 < lim := (pageLimit_bounds limit).1
  dsimp only
  rw [collectFromProviders_internal, countAcrossProviders_internal]
  dsimp only
  rw [sortBy_answer]
  have hdepth : (min (max ((offset : ℤ) + lim) 1) MAX_PROVIDER_FETCH).toNat
      = min (offset + lim) 500 := by
    have : MAX_PROVIDER_FETCH = 500 := rfl
    omega
  have hend : ((offset : ℤ) + lim).toNat = offset + lim := by omega
  have hcut : min (offset + lim) (min (offset + lim) 500) = min (offset + lim) 500 := by omega
  rw [hdepth, hend, Int.toNat_natCast, ← List.map_take, List.take_take, hcut, ← List.map_drop]
  simp only [pages, window, AggregatedOffers.mk.injEq, true_and]
  exact ⟨rfl, decide_eq_decide.mpr (by omega)⟩

/-! ## Reading all pages -/

/-- A reader gets every matching offer once and in order, whatever the queries answer, and
as many as every page says there are. -/
def ReadsCompletely (table : OfferTable) (asset : AssetType) (side : TradeSide)
    (filters : Option OfferFilters) (limit : Option ℤ) : Prop :=
  ∀ readings : ℕ → Reading table, ∃ offers,
    Reads (fun k => ((page readings asset side filters limit k).offers,
      (page readings asset side filters limit k).hasMore)) 0 offers ∧
    offers.Perm ((table.matching asset side filters).map mapOfferToLiquidityOffer) ∧
    offers.Pairwise (NotWorse side) ∧
    ∀ k, (page readings asset side filters limit k).total = offers.length

/-- One page holds the matching offers, or the page limit is one that pages have, no more
offers match than are fetched and no page border splits a group of equal price. -/
def Pageable (table : OfferTable) (asset : AssetType) (side : TradeSide)
    (filters : Option OfferFilters) (limit : Option ℤ) : Prop :=
  (table.matching asset side filters).length ≤ (pageLimit limit).toNat ∨
    (1 ≤ limit.getD DEFAULT_PAGE_LIMIT ∧ limit.getD DEFAULT_PAGE_LIMIT ≤ MAX_PAGE_LIMIT ∧
      (table.matching asset side filters).length ≤ 500 ∧
      ∀ k, ¬ Splits (priceKey side) (table.matching asset side filters)
        (k * (limit.getD DEFAULT_PAGE_LIMIT).toNat))

/-- A request of which one query answers in the given order. -/
def Reading.of (answer : List OfferRow)
    (h : Arranges (priceKey side) (table.matching asset side filters) answer) :
    Reading table where
  answer asset' side' filters' :=
    if (asset', side', filters') = (asset, side, filters) then answer
    else (table.matching asset' side' filters').mergeSort fun x y =>
      decide (priceKey side' x ≤ priceKey side' y)
  arranges asset' side' filters' := by
    split_ifs with heq
    · cases heq
      exact h
    · exact arranges_mergeSort _ _

theorem Reading.of_answer (answer : List OfferRow)
    (h : Arranges (priceKey side) (table.matching asset side filters) answer) :
    (Reading.of answer h).answer asset side filters = answer :=
  if_pos rfl

theorem OfferTable.nodup_matching (table : OfferTable) :
    ((table.matching asset side filters).map mapOfferToLiquidityOffer).Nodup := by
  have hids := table.nodup_ids.sublist
    ((List.filter_sublist (p := buildOfferWhere asset side filters)).map OfferRow.id)
  refine List.Nodup.of_map LiquidityOffer.id ?_
  rw [List.map_map]
  exact hids

/-- The pages are windows over the reads. -/
theorem page_eq (readings : ℕ → Reading table) (limit : Option ℤ) :
    (fun k => ((page readings asset side filters limit k).offers,
        (page readings asset side filters limit k).hasMore))
      = fun k => ((pages 500 (limit.getD DEFAULT_PAGE_LIMIT).toNat (pageLimit limit).toNat
            (table.matching asset side filters).length
            (fun k => (readings k).answer asset side filters) k).1.map mapOfferToLiquidityOffer,
          (pages 500 (limit.getD DEFAULT_PAGE_LIMIT).toNat (pageLimit limit).toNat
            (table.matching asset side filters).length
            (fun k => (readings k).answer asset side filters) k).2) := by
  funext k
  rw [getAggregatedOffers_page]

/-- Offers that fit the fetch are read completely. -/
theorem reads_of_pageable {limit : Option ℤ} (h : Pageable table asset side filters limit) :
    ReadsCompletely table asset side filters limit := by
  intro readings
  have hanswers : ∀ k, Arranges (priceKey side) (table.matching asset side filters)
      ((readings k).answer asset side filters) := fun k => (readings k).arranges asset side filters
  have hbounds := pageLimit_bounds limit
  obtain ⟨xs, hreads, hxs⟩ : ∃ xs, Reads (pages 500 (limit.getD DEFAULT_PAGE_LIMIT).toNat
      (pageLimit limit).toNat (table.matching asset side filters).length
      fun k => (readings k).answer asset side filters) 0 xs ∧
      Arranges (priceKey side) (table.matching asset side filters) xs := by
    rcases h with hone | ⟨hlow, hhigh, hcap, hborders⟩
    · exact reads_one hanswers hone (by omega)
    · have hlimit : (pageLimit limit).toNat = (limit.getD DEFAULT_PAGE_LIMIT).toNat := by
        rw [pageLimit, max_eq_left hlow, min_eq_left hhigh]
      rw [hlimit]
      exact reads_all hanswers (by omega) hcap hborders
  have hmapped := hreads.map mapOfferToLiquidityOffer
  rw [← page_eq] at hmapped
  refine ⟨_, hmapped, hxs.perm.map _, ?_, fun k => ?_⟩
  · exact List.pairwise_map.mpr (hxs.sorted.imp notWorse_of_priceKey)
  · rw [getAggregatedOffers_page, List.length_map, hxs.length_eq]

/-- Offers that are read completely fit the fetch. -/
theorem pageable_of_reads {limit : Option ℤ}
    (h : ReadsCompletely table asset side filters limit) :
    Pageable table asset side filters limit := by
  have hbounds := pageLimit_bounds limit
  rcases Nat.lt_or_ge (pageLimit limit).toNat (table.matching asset side filters).length with
    hmany | hone
  · have hall : ∀ answers : ℕ → List OfferRow,
        (∀ k, Arranges (priceKey side) (table.matching asset side filters) (answers k)) →
        ∃ xs, Reads (pages 500 (limit.getD DEFAULT_PAGE_LIMIT).toNat (pageLimit limit).toNat
          (table.matching asset side filters).length answers) 0 xs ∧ xs.Nodup ∧
          xs.length = (table.matching asset side filters).length := by
      intro answers hanswers
      obtain ⟨offers, hreads, hperm, -, -⟩ := h fun k => Reading.of _ (hanswers k)
      rw [page_eq] at hreads
      obtain ⟨xs, hxs, rfl⟩ := hreads.of_map
      simp only [Reading.of_answer] at hxs
      have hnodup := (hperm.nodup_iff.mpr table.nodup_matching).of_map
      have hlength := hperm.length_eq
      rw [List.length_map, List.length_map] at hlength
      exact ⟨xs, hxs, hnodup, hlength⟩
    obtain ⟨hstep, hcap, hborders⟩ := of_reads_all hbounds.1 (by omega) hall hmany
    rw [← hstep] at hborders
    refine .inr ⟨?_, ?_, hcap, hborders⟩
    · omega
    · rw [MAX_PAGE_LIMIT]
      omega
  · exact .inl hone

/-- Paging is complete exactly for the tables and limits that are `Pageable`. -/
theorem paging_complete (table : OfferTable) (asset : AssetType) (side : TradeSide)
    (filters : Option OfferFilters) (limit : Option ℤ) :
    ReadsCompletely table asset side filters limit ↔
      Pageable table asset side filters limit :=
  ⟨pageable_of_reads, reads_of_pageable⟩

/-- Two offers of one price, read one at a time. -/
theorem tie_read_twice :
    ¬ ∀ (table : OfferTable) (asset : AssetType) (side : TradeSide)
        (filters : Option OfferFilters) (limit : Option ℤ),
        ReadsCompletely table asset side filters limit := by
  intro h
  have hpageable := pageable_of_reads (h
    ⟨[⟨"a", .BTC, .SELL, 6000000000000, 1, 1, .PIX, .ACTIVE, 0⟩,
      ⟨"b", .BTC, .SELL, 6000000000000, 1, 1, .PIX, .ACTIVE, 0⟩], by decide⟩
    .BTC .SELL none (some 1))
  rcases hpageable with hone | ⟨-, -, -, hborders⟩
  · exact absurd hone (by decide)
  · exact hborders 1 (by decide)

end Sails.Liquidity
