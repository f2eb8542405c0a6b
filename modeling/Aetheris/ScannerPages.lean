import Mathlib.Data.List.Forall2
import Aetheris.Scanner

namespace Aetheris.Scanner

open Lib Ranking Money Clock Enums OrderIdentity PaperRecords
open MarketModels (Symbol Ticker)

section Sorting

variable {rows rows' : List ScannerRow} {field : SortField} {descending : Bool}

/-- Every field but one holds numbers. -/
theorem accessor_number (h : field ≠ .symbol) (r : ScannerRow) :
    ∃ x : Option Decimal, field.accessor r = x.map Sum.inrₗ := by
  cases field with
  | symbol => exact absurd rfl h
  | _ => exact ⟨_, rfl⟩

theorem accessor_asDecimal (h : field ≠ .symbol) {r : ScannerRow} (hknown : (field.accessor r).isSome) :
    field.accessor r = some (Sum.inrₗ (asDecimal (field.accessor r))) := by
  obtain ⟨x, hx⟩ := accessor_number h r
  rw [hx] at hknown ⊢
  cases x with
  | none => cases hknown
  | some x => rfl

/-- What the source sorts in three steps is in one order, a strict one. -/
theorem sort_ranked (hdistinct : (rows.map ScannerRow.symbol).Nodup) :
    Ranked descending field.accessor ScannerRow.symbol rows (sort rows field descending) := by
  have hpresent : ((rows.filter fun r => (field.accessor r).isSome).map ScannerRow.symbol).Nodup :=
    hdistinct.sublist (List.filter_sublist.map _)
  have habsent : ((rows.filter fun r => (field.accessor r).isNone).map ScannerRow.symbol).Nodup :=
    hdistinct.sublist (List.filter_sublist.map _)
  have hsplit : ((rows.filter fun r => (field.accessor r).isSome) ++
      rows.filter fun r => (field.accessor r).isNone).Perm rows := by
    refine List.Perm.trans (List.Perm.append_left _ (List.Perm.of_eq (List.filter_congr fun r _ => ?_)))
      (List.filter_append_perm (fun r => (field.accessor r).isSome) rows)
    cases field.accessor r <;> rfl
  unfold sort
  dsimp only
  split
  next hsymbol =>
    subst hsymbol
    have hranked := sortBy_perm descending ScannerRow.symbol (rows.filter fun r => (SortField.symbol.accessor r).isSome)
    refine ranked_append ((hranked.append (sortBy_perm _ _ _)).trans hsplit) (fun r hr => ?_) (fun r hr => ?_) ?_
      (sortBy_ascending habsent)
    · exact (List.mem_filter.mp (mem_sortBy.mp hr)).2
    · exact Option.isNone_iff_eq_none.mp (List.mem_filter.mp (mem_sortBy.mp hr)).2
    · have hstrict : (Ranking.sortBy descending ScannerRow.symbol
          (rows.filter fun r => (SortField.symbol.accessor r).isSome)).Pairwise fun a b =>
            Leads descending a.symbol b.symbol := sortBy_strict hpresent
      refine hstrict.imp fun {a b} h => ?_
      have hleads : Leads descending (Sum.inlₗ a.symbol : String ⊕ₗ Decimal) (Sum.inlₗ b.symbol) :=
        Leads.map Sum.Lex.inl_strictMono h
      exact ahead_known rfl rfl (Or.inl hleads)
  next hnumber =>
    let byName := Ranking.sortBy false ScannerRow.symbol (rows.filter fun r => (field.accessor r).isSome)
    let value := fun r => asDecimal (field.accessor r)
    have hranked : (Ranking.sortBy descending value byName).Perm (rows.filter fun r => (field.accessor r).isSome) :=
      (sortBy_perm _ _ _).trans (sortBy_perm _ _ _)
    have hknown : ∀ r ∈ Ranking.sortBy descending value byName, (field.accessor r).isSome := fun r hr =>
      (List.mem_filter.mp (hranked.mem_iff.mp hr)).2
    refine ranked_append ((hranked.append (sortBy_perm _ _ _)).trans hsplit) hknown (fun r hr => ?_) ?_
      (sortBy_ascending habsent)
    · exact Option.isNone_iff_eq_none.mp (List.mem_filter.mp (mem_sortBy.mp hr)).2
    · refine (sortBy_pairwise (sortBy_ascending hpresent)).imp_of_mem fun {a b} ha hb h => ?_
      refine ahead_known (accessor_asDecimal hnumber (hknown a ha)) (accessor_asDecimal hnumber (hknown b hb)) ?_
      rcases h with hleads | ⟨heq, hname⟩
      · exact Or.inl (hleads.map Sum.Lex.inr_strictMono)
      · exact Or.inr ⟨congrArg Sum.inrₗ heq, hname⟩

/-- The order in which rows come in makes no difference. -/
theorem sort_perm (hperm : rows.Perm rows') (hdistinct : (rows.map ScannerRow.symbol).Nodup) :
    sort rows field descending = sort rows' field descending :=
  (sort_ranked hdistinct).unique (sort_ranked ((hperm.map _).nodup_iff.mp hdistinct)) hperm

end Sorting

def ScanQuery.pooled (query : ScanQuery) : Bool := query.needsSetups || query.needsPool

/-- The same query, for another page. Pages are counted from nothing here. -/
def ScanQuery.onPage (query : ScanQuery) (n : Nat) : ScanQuery := { query with page := n + 1, page_pos := n.succ_pos }

namespace ScannerService

variable (service : ScannerService) {rows rows' : List ScannerRow} {query : ScanQuery} {now : Timestamp}

section Rows

theorem buildRow_symbol (symbol : Symbol) (ticker : Option Ticker) (observation : Observation (List Ticker)) :
    (service.buildRow symbol ticker observation now).symbol = symbol.symbol := by
  unfold buildRow
  cases ticker with
  | none => rfl
  | some ticker =>
      dsimp only
      split <;> rfl

theorem buildRows_symbols (symbols : List Symbol) (observation : Observation (List Ticker)) :
    (service.buildRows symbols observation now).map ScannerRow.symbol = symbols.map fun symbol => symbol.symbol := by
  rw [buildRows, List.map_map]
  exact List.map_congr_left fun symbol _ => service.buildRow_symbol symbol _ observation

theorem withMetrics_symbol (series : MarketModels.CandleSeries) (row : ScannerRow) :
    (withMetrics series now row).symbol = row.symbol := by
  unfold withMetrics
  cases computeMetrics series now defaultMomentumLookback <;> rfl

theorem enrichMetrics_symbol (timeframe : Timeframe) (row : ScannerRow) :
    (service.enrichMetrics timeframe now row).symbol = row.symbol := by
  unfold enrichMetrics
  cases service.klines row.symbol timeframe service.settings.candleLimit with
  | error reason => rfl
  | ok found => exact withMetrics_symbol found.2 row

theorem enrichSetup_symbol (timeframe : Timeframe) (row : ScannerRow) :
    (service.enrichSetup timeframe now row).symbol = row.symbol := by
  unfold enrichSetup
  cases service.klines row.symbol timeframe service.settings.setupCandleLimit with
  | error reason => rfl
  | ok found => exact withMetrics_symbol found.2 row

theorem attachMetrics_eq (timeframe : Timeframe) (h : rows.length ≤ service.settings.maxMetricSymbols) :
    service.attachMetrics rows timeframe now = rows.map (service.enrichMetrics timeframe now) := by
  rw [attachMetrics, List.take_of_length_le h, List.drop_of_length_le h, List.append_nil]

end Rows

section Selection

variable (query now)

def poolSize : Nat :=
  min (if query.needsSetups then service.settings.setupPoolSize else service.settings.candidatePoolSize)
    service.settings.maxMetricSymbols

/-- What is attached to a row of the pool. -/
def enrich : ScannerRow → ScannerRow :=
  if query.needsSetups then service.enrichSetup query.timeframe now else service.enrichMetrics query.timeframe now

/-- What a query is to select among rows: all of them, or, where it needs a pool,
those of the most liquid that pass its filters on what was attached to them. -/
def Selects (rows selected : List ScannerRow) : Prop :=
  if query.pooled then
    ∃ liquid, Ranked true (SortField.accessor .quoteVolume24h) ScannerRow.symbol rows liquid ∧
      selected = ((liquid.take (service.poolSize query)).map (service.enrich query now)).filter fun r =>
        !query.filters.needsMetrics || passesMetricFilters query.filters r
  else selected = rows

variable {query now}

theorem enrich_symbol (row : ScannerRow) : (service.enrich query now row).symbol = row.symbol := by
  unfold enrich
  split
  · exact service.enrichSetup_symbol _ row
  · exact service.enrichMetrics_symbol _ row

theorem Selects.nodup {selected : List ScannerRow} (h : service.Selects query now rows selected)
    (hdistinct : (rows.map ScannerRow.symbol).Nodup) : (selected.map ScannerRow.symbol).Nodup := by
  unfold Selects at h
  split at h
  · obtain ⟨liquid, hliquid, rfl⟩ := h
    have hall : (liquid.map ScannerRow.symbol).Nodup := (hliquid.perm.map _).nodup_iff.mpr hdistinct
    have hpool : (((liquid.take (service.poolSize query)).map (service.enrich query now)).map ScannerRow.symbol).Nodup := by
      have hsame : ScannerRow.symbol ∘ service.enrich query now = ScannerRow.symbol := by
        funext r
        exact service.enrich_symbol r
      rw [List.map_map, hsame]
      exact hall.sublist ((List.take_sublist _ _).map _)
    exact hpool.sublist (List.filter_sublist.map _)
  · rw [h]
    exact hdistinct

/-- The pool of a query, filtered as the source filters it and as it is said to. -/
theorem rankPool_rows {attach : List ScannerRow → List ScannerRow} {poolSize : Nat} :
    (rankPool rows query poolSize attach).1 =
      sort ((attach ((sort rows .quoteVolume24h true).take poolSize)).filter fun r =>
        !query.filters.needsMetrics || passesMetricFilters query.filters r) query.sortBy query.descending := by
  unfold rankPool
  cases query.filters.needsMetrics with
  | true => rfl
  | false =>
      have hall : ∀ scored : List ScannerRow, scored.filter (fun r => !false || passesMetricFilters query.filters r) =
          scored := fun scored => List.filter_eq_self.mpr fun _ _ => rfl
      rw [hall]
      rfl

theorem rank_pooled (h : query.pooled = true) : (service.rank rows query now).rows =
    sort ((((sort rows .quoteVolume24h true).take (service.poolSize query)).map (service.enrich query now)).filter
      fun r => !query.filters.needsMetrics || passesMetricFilters query.filters r) query.sortBy query.descending := by
  unfold rank poolSize enrich
  cases hsetups : query.needsSetups with
  | true =>
      change (service.rankWithSetups rows query now).1 = _
      exact rankPool_rows
  | false =>
      have hpool : query.needsPool = true := by simpa [ScanQuery.pooled, hsetups] using h
      rw [hpool]
      change (service.rankWithMetrics rows query now).1 = _
      rw [rankWithMetrics, rankPool_rows, attachMetrics_eq]
      · rfl
      · exact (List.length_take_le _ _).trans (min_le_right _ _)

theorem rank_plain (h : query.pooled = false) :
    (service.rank rows query now).rows = sort rows query.sortBy query.descending := by
  obtain ⟨hsetups, hpool⟩ := Bool.or_eq_false_iff.mp h
  rw [rank, hsetups, hpool]
  rfl

/-- What is ranked is what the query selects, in its order. -/
theorem rank_selects (hdistinct : (rows.map ScannerRow.symbol).Nodup) :
    ∃ selected, service.Selects query now rows selected ∧
      Ranked query.descending query.sortBy.accessor ScannerRow.symbol selected (service.rank rows query now).rows := by
  cases h : query.pooled with
  | true =>
      rw [service.rank_pooled h]
      let pool := ((sort rows .quoteVolume24h true).take (service.poolSize query)).map (service.enrich query now)
      have hselects : service.Selects query now rows
          (pool.filter fun r => !query.filters.needsMetrics || passesMetricFilters query.filters r) := by
        rw [Selects, if_pos h]
        exact ⟨_, sort_ranked hdistinct, rfl⟩
      exact ⟨_, hselects, sort_ranked (Selects.nodup service hselects hdistinct)⟩
  | false =>
      rw [service.rank_plain h]
      refine ⟨rows, ?_, sort_ranked hdistinct⟩
      rw [Selects, if_neg (by rw [h]; exact Bool.false_ne_true)]

/-- A ranking does not depend on the order in which the rows came in. -/
theorem rank_perm (hperm : rows.Perm rows') (hdistinct : (rows.map ScannerRow.symbol).Nodup) :
    service.rank rows query now = service.rank rows' query now := by
  have hsort : ∀ field descending, sort rows field descending = sort rows' field descending := fun _ _ =>
    sort_perm hperm hdistinct
  have hpool : ∀ poolSize attach, rankPool rows query poolSize attach = rankPool rows' query poolSize attach := by
    intro poolSize attach
    rw [rankPool, rankPool, hsort]
  rw [rank, rank, rankWithSetups, rankWithSetups, rankWithMetrics, rankWithMetrics, hsort, hpool, hpool]

end Selection

section Pages

variable (query now)

/-- How a page shows a row of the ranking: as it is, or with statistics that were asked for on top. -/
def Shows (shown row : ScannerRow) : Prop :=
  shown = row ∨ query.enriches = true ∧ shown = service.enrichMetrics query.timeframe now row

variable {query now}

theorem attachMetrics_shows (h : query.enriches = true) (rows : List ScannerRow) :
    List.Forall₂ (service.Shows query now) (service.attachMetrics rows query.timeframe now) rows := by
  have hrest : List.Forall₂ (service.Shows query now) (rows.drop service.settings.maxMetricSymbols)
      (rows.drop service.settings.maxMetricSymbols) := List.forall₂_same.mpr fun _ _ => Or.inl rfl
  have hcapped : List.Forall₂ (service.Shows query now)
      ((rows.take service.settings.maxMetricSymbols).map (service.enrichMetrics query.timeframe now))
      (rows.take service.settings.maxMetricSymbols) :=
    List.forall₂_map_left_iff.mpr (List.forall₂_same.mpr fun _ _ => Or.inr ⟨h, rfl⟩)
  have hboth : List.Forall₂ (service.Shows query now) (service.attachMetrics rows query.timeframe now)
      (rows.take service.settings.maxMetricSymbols ++ rows.drop service.settings.maxMetricSymbols) :=
    List.rel_append hcapped hrest
  rwa [List.take_append_drop] at hboth

variable [Runtime] {symbols symbols' : List Symbol} {observation : Observation (List Ticker)}

/-- The rows among which a query selects: those whose tickers pass its filters. -/
def eligible (symbols : List Symbol) (observation : Observation (List Ticker)) (now : Timestamp) (query : ScanQuery) :
    List ScannerRow :=
  (service.buildRows symbols observation now).filter (passesTickerFilters query.filters)

theorem eligible_distinct (hdistinct : (symbols.map fun symbol => symbol.symbol).Nodup) :
    ((service.eligible symbols observation now query).map ScannerRow.symbol).Nodup := by
  have hrows : ((service.buildRows symbols observation now).map ScannerRow.symbol).Nodup := by
    rw [buildRows_symbols]
    exact hdistinct
  exact hrows.sublist (List.filter_sublist.map _)

theorem eligible_perm (hperm : symbols.Perm symbols') :
    (service.eligible symbols observation now query).Perm (service.eligible symbols' observation now query) :=
  (hperm.map _).filter _

theorem pageOf_shows (started : Timestamp) (instants : Instants) (n : Nat) :
    List.Forall₂ (service.Shows query instants.attached)
      (service.pageOf started instants (query.onPage n) symbols observation).rows
      (Ranking.page (service.rank (service.eligible symbols observation instants.built query) query
        instants.attached).rows query.pageSize n) := by
  change List.Forall₂ _ (if query.enriches then service.attachMetrics (Ranking.page _ query.pageSize n) query.timeframe
    instants.attached else Ranking.page _ query.pageSize n) _
  split
  next henriches => exact service.attachMetrics_shows henriches _
  · exact List.forall₂_same.mpr fun _ _ => Or.inl rfl

/-- The venue's listing only decides what there is, not where it stands. -/
theorem pageOf_perm (started : Timestamp) (instants : Instants) (hperm : symbols.Perm symbols')
    (hdistinct : (symbols.map fun symbol => symbol.symbol).Nodup) :
    service.pageOf started instants query symbols observation =
      service.pageOf started instants query symbols' observation := by
  have hrank : service.rank (service.eligible symbols observation instants.built query) query instants.attached =
      service.rank (service.eligible symbols' observation instants.built query) query instants.attached :=
    service.rank_perm (service.eligible_perm hperm) (service.eligible_distinct hdistinct)
  unfold eligible at hrank
  rw [pageOf, pageOf, hrank, hperm.length_eq]

end Pages

theorem scan_ok [Runtime] {symbols : List Symbol} {observation : Observation (List Ticker)}
    (hsymbols : service.exchange.getSymbols = .ok symbols) (htickers : service.exchange.getAllTickers = .ok observation)
    (started : Timestamp) (instants : Instants) :
    service.scan started instants query = .ok (service.pageOf started instants query symbols observation) := by
  rw [scan, hsymbols, htickers]
  rfl

/-- The same market, with its symbols listed otherwise. -/
def relisting (symbols : List Symbol) : ScannerService :=
  { service with exchange := { service.exchange with getSymbols := .ok symbols } }

end ScannerService

/-- The pages of a query are its ranking, cut in pieces. -/
theorem scan_pages [Runtime] (service : ScannerService) (query : ScanQuery) (started : Nat → Timestamp)
    (instants : Instants) (symbols : List Symbol) (observation : Observation (List Ticker))
    (hsymbols : service.exchange.getSymbols = .ok symbols) (htickers : service.exchange.getAllTickers = .ok observation)
    (hdistinct : (symbols.map fun symbol => symbol.symbol).Nodup) :
    ∃ (pages : Nat → ScannerPage) (selected ranking : List ScannerRow),
      (∀ n, service.scan (started n) instants (query.onPage n) = .ok (pages n)) ∧
      service.Selects query instants.attached (service.eligible symbols observation instants.built query) selected ∧
      (selected.map ScannerRow.symbol).Nodup ∧
      Ranked query.descending query.sortBy.accessor ScannerRow.symbol selected ranking ∧
      (∀ k, selected.length ≤ k * query.pageSize →
        List.Forall₂ (service.Shows query instants.attached) ((List.range k).flatMap fun n => (pages n).rows) ranking) ∧
      (∀ n, (pages n).totalRows = selected.length) ∧
      ∀ relisted : List Symbol, relisted.Perm symbols →
        ∀ n, (service.relisting relisted).scan (started n) instants (query.onPage n) = .ok (pages n) := by
  let rows := service.eligible symbols observation instants.built query
  let ranking := (service.rank rows query instants.attached).rows
  have hrows : (rows.map ScannerRow.symbol).Nodup := service.eligible_distinct hdistinct
  obtain ⟨selected, hselects, hranked⟩ : ∃ selected, service.Selects query instants.attached rows selected ∧
      Ranked query.descending query.sortBy.accessor ScannerRow.symbol selected ranking := service.rank_selects hrows
  refine ⟨fun n => service.pageOf (started n) instants (query.onPage n) symbols observation, selected, ranking,
    fun n => service.scan_ok hsymbols htickers _ _, hselects, hselects.nodup service hrows, hranked, fun k hk => ?_,
    fun n => hranked.perm.length_eq, fun relisted hperm n => ?_⟩
  · have hall : (List.range k).flatMap (fun n => Ranking.page ranking query.pageSize n) = ranking := by
      rw [flatMap_page]
      exact List.take_of_length_le (hranked.perm.length_eq.trans_le hk)
    rw [← hall]
    exact List.rel_flatMap (List.forall₂_same.mpr fun _ _ => rfl) fun n m hn => by
      subst hn
      exact service.pageOf_shows (started n) instants n
  · have hpage : (service.relisting relisted).pageOf (started n) instants (query.onPage n) relisted observation =
        service.pageOf (started n) instants (query.onPage n) relisted observation := rfl
    rw [(service.relisting relisted).scan_ok rfl htickers, hpage,
      ← service.pageOf_perm (started n) instants hperm.symm hdistinct]

theorem noPrecision {n : Int} (h : n ∈ (none : Option Int)) : 0 ≤ n := absurd h (Option.not_mem_none n)

theorem step_pos : (0 : Decimal) < 1 := zero_lt_one

theorem least_nonneg : (0 : Decimal) ≤ 0 := le_refl 0

theorem precision_nonneg : (0 : Int) ≤ 0 := le_refl 0

def exampleSymbol (symbol : String) : Symbol where
  symbol := symbol
  baseAsset := symbol
  quoteAsset := "USDT"
  marginAsset := none
  status := .trading
  contractType := .perpetual
  pricePrecision := 0
  quantityPrecision := 0
  baseAssetPrecision := none
  quotePrecision := none
  filters := {
    tickSize := 1
    stepSize := 1
    minQuantity := 0
    maxQuantity := none
    minPrice := none
    maxPrice := none
    minNotional := none
    marketStepSize := none
    marketMinQuantity := none
    marketMaxQuantity := none
    tickSize_pos := step_pos
    stepSize_pos := step_pos
    minQuantity_nonneg := least_nonneg }
  onboardDate := none
  deliveryDate := none
  orderTypes := []
  timeInForce := []
  maxLeverage := none
  pricePrecision_nonneg := precision_nonneg
  quantityPrecision_nonneg := precision_nonneg
  baseAssetPrecision_nonneg _ := noPrecision
  quotePrecision_nonneg _ := noPrecision

def exampleTicker (symbol : String) (quoteVolume : Decimal) : Ticker where
  symbol := symbol
  lastPrice := 1
  bidPrice := none
  askPrice := none
  high24h := none
  low24h := none
  open24h := none
  volume24h := none
  quoteVolume24h := some quoteVolume
  priceChange24h := none
  priceChangePercent24h := none
  eventTime := none

/-- Two instruments of one volume, and one without a ticker. -/
def exampleService : ScannerService where
  exchange := {
    getSymbols := .ok [exampleSymbol "XRPUSDT", exampleSymbol "ETHUSDT", exampleSymbol "BTCUSDT"]
    getAllTickers := .ok ⟨some [exampleTicker "ETHUSDT" 10, exampleTicker "BTCUSDT" 10], .ok, "venue", none, 0, none, rfl⟩
    getKlines := fun _ _ _ => .error .timeout }
  settings := {}
  maxTickerAgeSeconds := 60

theorem firstPage : 1 ≤ 1 := le_refl 1

theorem twoRows : 1 ≤ 2 := one_le_two

def exampleQuery : ScanQuery where
  page := 1
  pageSize := 2
  page_pos := firstPage
  pageSize_pos := twoRows

theorem scan_pages_example : ∃ (pages : Nat → ScannerPage) (ranking : List ScannerRow),
    (∀ n, @ScannerService.scan exampleService referenceRuntime 0 ⟨0, 0⟩ (exampleQuery.onPage n) = .ok (pages n)) ∧
    (ranking.map ScannerRow.symbol).Perm ["XRPUSDT", "ETHUSDT", "BTCUSDT"] ∧
    ranking.Pairwise (Ahead true (SortField.accessor .quoteVolume24h) ScannerRow.symbol) ∧
    (∀ n, (pages n).totalRows = 3) := by
  obtain ⟨pages, selected, ranking, hpages, hselects, _, hranked, _, htotal, _⟩ :=
    @scan_pages referenceRuntime exampleService exampleQuery (fun _ => 0) ⟨0, 0⟩ _ _ rfl rfl (by decide)
  have hselected : selected = _ := hselects
  rw [hselected] at hranked htotal
  exact ⟨pages, ranking, hpages, hranked.perm.map _, hranked.ordered, htotal⟩

end Aetheris.Scanner
