import Mathlib.Data.List.DropRight
import Aetheris.IndicatorRanges
import Aetheris.MarketModels

namespace Aetheris.Scanner

open Lib Money Clock PaperRecords Indicators IndicatorLibrary
open MarketModels (CandleSeries)

section Domain

inductive TrendDirection
  | up | down | sideways | unknown
  deriving DecidableEq, Repr

/-- Statistics computed from closed candles. -/
structure ScannerMetrics where
  timeframe : Timeframe
  candlesUsed : Nat
  windowReturnPercent : Decimal
  momentumPercent : Decimal
  volatilityPercent : Decimal
  atr : Decimal
  atrPercent : Decimal
  averageVolume : Decimal
  lastVolume : Decimal
  relativeVolume : Option Decimal
  rangePercent : Decimal
  bodyPercent : Decimal
  trend : TrendDirection
  trendConsistency : Decimal

/-- One factor's contribution to the opportunity score. -/
structure ScoreComponent where
  name : String
  rawValue : Decimal
  normalized : Decimal
  weight : Decimal
  contribution : Decimal
  detail : String

/-- A ranking metric over currently measurable activity. -/
structure OpportunityScore where
  score : Decimal
  components : List ScoreComponent
  method : String

end Domain

section Metrics

def minCandlesForMetrics : Nat := 15

def defaultMomentumLookback : Nat := 10

def sidewaysThresholdPercent : Decimal := 1 / 4

def atrPeriod : Nat := 14

def fourPlaces (value : Decimal) : Decimal := FixedPoint.halfUp 10000 value

/-- A base of zero has no percent change. -/
def percentChange (new old : Decimal) : Option Decimal := if old ≤ 0 then none else some ((new - old) / old * 100)

def mean (values : List Decimal) : Decimal := values.sum / values.length

/-- Without the bars at the end that have not closed yet. -/
def closedCandles (series : CandleSeries) (now : Timestamp) : List Candle :=
  (series.candles.map MarketModels.Candle.toCandle).rdropWhile fun c => now < c.closeTime

def trendOf (netChangePercent : Decimal) : TrendDirection :=
  if sidewaysThresholdPercent < netChangePercent then .up
  else if netChangePercent < -sidewaysThresholdPercent then .down
  else .sideways

/-- The share of bars that closed in the direction of the net move. -/
def trendConsistency (candles : List Candle) (netChangePercent : Decimal) : Decimal :=
  if netChangePercent = 0 then 0
  else
    let agreeing := candles.filter fun c => if 0 < netChangePercent then c.open_ < c.close else c.close < c.open_
    agreeing.length / candles.length

/-- The changes from bar to bar, where they are defined. -/
def returns (closes : List Decimal) : List Decimal :=
  (closes.zip closes.tail).filterMap fun (previous, current) => percentChange current previous

def volatility (returns : List Decimal) : Decimal :=
  let meanReturn := mean returns
  let variance := mean (returns.map fun r => (r - meanReturn) ^ 2)
  if 0 < variance then sqrt variance else 0

/-- The last value of Wilder's average true range. -/
def lastAtr (candles : List Candle) : Decimal :=
  ((atr candles (min atrPeriod (candles.length - 1))).reverse.findSome? id).getD 0

def relativeVolume (candles : List Candle) : Option Decimal :=
  let preceding := (volumes candles).dropLast
  let precedingMean := if preceding = [] then 0 else mean preceding
  if 0 < precedingMean then some ((volumes candles).getLastD 0 / precedingMean) else none

def rangePercent (candles : List Candle) : Decimal :=
  (percentChange ((highs candles).max?.getD 0) ((lows candles).min?.getD 0)).getD 0

def bodyPercent (candles : List Candle) : Decimal :=
  let meanBody := mean (candles.map fun c => |c.close - c.open_|)
  let meanRange := mean (candles.map fun c => c.high - c.low)
  if 0 < meanRange then meanBody / meanRange * 100 else 0

/-- The statistics of a series; nothing, where it is too thin for them. -/
def computeMetrics (series : CandleSeries) (now : Timestamp) (momentumLookback : Nat) : Option ScannerMetrics :=
  let candles := closedCandles series now
  let closes := closes candles
  let lastClose := closes.getLastD 0
  if candles.length < minCandlesForMetrics then none
  else
    match percentChange lastClose (closes.headD 0) with
    | none => none
    | some windowReturn =>
        if lastClose ≤ 0 then none
        else if returns closes = [] then none
        else
          let lookback := min momentumLookback (closes.length - 1)
          some {
            timeframe := series.timeframe
            candlesUsed := candles.length
            windowReturnPercent := fourPlaces windowReturn
            momentumPercent := fourPlaces ((percentChange lastClose (closes.getD (closes.length - 1 - lookback) 0)).getD 0)
            volatilityPercent := fourPlaces (volatility (returns closes))
            atr := quantizeUsdt (lastAtr candles)
            atrPercent := fourPlaces (lastAtr candles / lastClose * 100)
            averageVolume := quantizeUsdt (mean (volumes candles))
            lastVolume := quantizeUsdt ((volumes candles).getLastD 0)
            relativeVolume := (relativeVolume candles).map fourPlaces
            rangePercent := fourPlaces (rangePercent candles)
            bodyPercent := fourPlaces (bodyPercent candles)
            trend := trendOf windowReturn
            trendConsistency := fourPlaces (trendConsistency candles windowReturn) }

end Metrics

section Scoring

def scoringMethod : String := "market-opportunity/v2"

def clampUnit (value : Decimal) : Decimal := if value ≤ 0 then 0 else min value 1

def twoPlaces (value : Decimal) : Decimal := FixedPoint.halfUp 100 value

def component (name : String) (weight raw normalized : Decimal) (detail : String) : ScoreComponent :=
  let normalized := clampUnit normalized
  { name := name
    rawValue := fourPlaces raw
    normalized := fourPlaces normalized
    weight := weight
    contribution := twoPlaces (normalized * weight * 100)
    detail := detail }

def scoreComponents (metrics : ScannerMetrics) (relativeVolume : Decimal) : List ScoreComponent :=
  let volume := fixed 4 relativeVolume
  let preceding := metrics.candlesUsed - 1
  let range := fixed 4 metrics.atrPercent
  let momentum := fixed 4 metrics.momentumPercent
  let consistency := fixed 4 metrics.trendConsistency
  let move := fixed 4 metrics.windowReturnPercent
  [component "relative_volume" (3 / 10) relativeVolume (relativeVolume / 3)
      s!"Last closed candle traded {volume}x the mean volume of the preceding {preceding} candles (reference 3x)",
    component "volatility" (1 / 4) metrics.atrPercent (metrics.atrPercent / 3)
      s!"Average true range is {range}% of the last close (reference 3%)",
    component "momentum" (1 / 4) |metrics.momentumPercent| (|metrics.momentumPercent| / 5)
      s!"Price moved {momentum}% over the momentum lookback; magnitude scored against a 5% reference",
    component "trend_consistency" (1 / 5) metrics.trendConsistency metrics.trendConsistency
      s!"{consistency} of candles closed in the direction of the net {move}% move"]

/-- An instrument's score; nothing without its largest factor. -/
def scoreOpportunity (metrics : ScannerMetrics) : Option OpportunityScore :=
  metrics.relativeVolume.map fun relativeVolume =>
    let components := scoreComponents metrics relativeVolume
    { score := min (twoPlaces (components.map ScoreComponent.contribution).sum) 100
      components := components
      method := scoringMethod }

end Scoring

section Validity

/-- The bounds that the record of a series' statistics declares. -/
structure ScannerMetrics.Valid (metrics : ScannerMetrics) : Prop where
  atr : 0 ≤ metrics.atr
  atrPercent : 0 ≤ metrics.atrPercent
  averageVolume : 0 ≤ metrics.averageVolume
  lastVolume : 0 ≤ metrics.lastVolume
  relativeVolume : ∀ ratio ∈ metrics.relativeVolume, 0 ≤ ratio
  rangePercent : 0 ≤ metrics.rangePercent
  bodyPercent : 0 ≤ metrics.bodyPercent
  trendConsistency : 0 ≤ metrics.trendConsistency ∧ metrics.trendConsistency ≤ 1

variable {candles : List Candle} {x y : Decimal}

theorem fourPlaces_nonneg (h : 0 ≤ x) : 0 ≤ fourPlaces x := FixedPoint.halfUp_nonneg (by norm_num) h

theorem fourPlaces_le_one (h : x ≤ 1) : fourPlaces x ≤ 1 := by
  have hone : FixedPoint.halfUp (10000 : Decimal) 1 = 1 :=
    FixedPoint.halfUp_of_grid (by norm_num) ⟨10000, by norm_num⟩
  calc fourPlaces x ≤ FixedPoint.halfUp 10000 1 := FixedPoint.halfUp_mono (by norm_num) h
    _ = 1 := hone

theorem mean_nonneg {values : List Decimal} (h : ∀ x ∈ values, 0 ≤ x) : 0 ≤ mean values :=
  div_nonneg (List.sum_nonneg h) (Nat.cast_nonneg _)

theorem volumes_nonneg (candles : List Candle) : ∀ x ∈ volumes candles, 0 ≤ x := by
  intro x hx
  obtain ⟨c, _, rfl⟩ := List.mem_map.mp hx
  exact c.volume_nonneg

theorem lastVolume_nonneg (candles : List Candle) : 0 ≤ (volumes candles).getLastD 0 := by
  rw [List.getLastD_eq_getLast?]
  cases h : (volumes candles).getLast? with
  | none => exact le_rfl
  | some volume => exact volumes_nonneg candles volume (List.mem_of_getLast? h)

theorem lastAtr_nonneg (h : minCandlesForMetrics ≤ candles.length) : 0 ≤ lastAtr candles := by
  have hperiod : 1 ≤ min atrPeriod (candles.length - 1) := by
    unfold minCandlesForMetrics at h
    unfold atrPeriod
    omega
  unfold lastAtr
  cases hfound : (atr candles (min atrPeriod (candles.length - 1))).reverse.findSome? id with
  | none => exact le_rfl
  | some value =>
      obtain ⟨entry, hentry, hvalue⟩ := List.exists_of_findSome?_eq_some hfound
      exact IndicatorRanges.every_atr hperiod candles entry (List.mem_reverse.mp hentry) value hvalue

theorem relativeVolume_nonneg (candles : List Candle) : ∀ ratio ∈ relativeVolume candles, 0 ≤ ratio := by
  intro ratio hratio
  obtain ⟨hmean, hratio⟩ := Option.ite_none_right_eq_some.mp hratio
  obtain rfl := Option.some.inj hratio
  exact div_nonneg (lastVolume_nonneg candles) hmean.le

theorem percentChange_nonneg (h : y ≤ x) : 0 ≤ (percentChange x y).getD 0 := by
  unfold percentChange
  split
  · exact le_rfl
  next hbase =>
    have hgain : 0 ≤ (x - y) / y := div_nonneg (sub_nonneg.mpr h) (not_le.mp hbase).le
    exact mul_nonneg hgain (by norm_num)

theorem rangePercent_nonneg (candles : List Candle) : 0 ≤ rangePercent candles := by
  refine percentChange_nonneg ?_
  cases candles with
  | nil => exact le_rfl
  | cons c rest =>
      obtain ⟨high, hhigh⟩ := Option.isSome_iff_exists.mp (List.isSome_max?_of_mem (List.mem_cons_self (a := c.high)
        (l := highs rest)))
      obtain ⟨low, hlow⟩ := Option.isSome_iff_exists.mp (List.isSome_min?_of_mem (List.mem_cons_self (a := c.low)
        (l := lows rest)))
      change ((c.low :: lows rest).min?).getD 0 ≤ ((c.high :: highs rest).max?).getD 0
      rw [hhigh, hlow]
      exact ((List.min?_eq_some_iff.mp hlow).2 _ List.mem_cons_self).trans
        ((c.low_le_open.trans c.open_le_high).trans ((List.max?_eq_some_iff.mp hhigh).2 _ List.mem_cons_self))

theorem bodyPercent_nonneg (candles : List Candle) : 0 ≤ bodyPercent candles := by
  unfold bodyPercent
  dsimp only
  split
  next hrange =>
    have hbody : 0 ≤ mean (candles.map fun c => |c.close - c.open_|) := by
      refine mean_nonneg fun x hx => ?_
      obtain ⟨c, _, rfl⟩ := List.mem_map.mp hx
      exact abs_nonneg _
    exact mul_nonneg (div_nonneg hbody hrange.le) (by norm_num)
  · exact le_rfl

theorem trendConsistency_bounds (candles : List Candle) (move : Decimal) :
    0 ≤ trendConsistency candles move ∧ trendConsistency candles move ≤ 1 := by
  unfold trendConsistency
  split
  · exact ⟨le_rfl, zero_le_one⟩
  · dsimp only
    refine ⟨div_nonneg (Nat.cast_nonneg _) (Nat.cast_nonneg _), div_le_one_of_le₀ ?_ (Nat.cast_nonneg _)⟩
    exact_mod_cast List.length_filter_le _ _

/-- What is computed is never refused by its own record. -/
theorem computeMetrics_valid {series : CandleSeries} {now : Timestamp} {lookback : Nat} {metrics : ScannerMetrics}
    (h : computeMetrics series now lookback = some metrics) : metrics.Valid := by
  unfold computeMetrics at h
  dsimp only at h
  split at h
  · cases h
  next hlength =>
    split at h
    · cases h
    next windowReturn _ =>
      split at h
      · cases h
      next hlast =>
        split at h
        · cases h
        obtain rfl := Option.some.inj h
        have hatr : 0 ≤ lastAtr (closedCandles series now) := lastAtr_nonneg (not_lt.mp hlength)
        have hconsistency := trendConsistency_bounds (closedCandles series now) windowReturn
        constructor
        · exact quantizeUsdt_nonneg hatr
        · exact fourPlaces_nonneg (mul_nonneg (div_nonneg hatr (not_le.mp hlast).le) (by norm_num))
        · exact quantizeUsdt_nonneg (mean_nonneg (volumes_nonneg _))
        · exact quantizeUsdt_nonneg (lastVolume_nonneg _)
        · intro ratio hratio
          obtain ⟨value, hvalue, rfl⟩ := Option.map_eq_some_iff.mp hratio
          exact fourPlaces_nonneg (relativeVolume_nonneg _ value hvalue)
        · exact fourPlaces_nonneg (rangePercent_nonneg _)
        · exact fourPlaces_nonneg (bodyPercent_nonneg _)
        · exact ⟨fourPlaces_nonneg hconsistency.1, fourPlaces_le_one hconsistency.2⟩

/-- The bounds that the record of one factor declares. -/
structure ScoreComponent.Valid (c : ScoreComponent) : Prop where
  normalized : 0 ≤ c.normalized ∧ c.normalized ≤ 1
  contribution : 0 ≤ c.contribution

theorem clampUnit_bounds (x : Decimal) : 0 ≤ clampUnit x ∧ clampUnit x ≤ 1 := by
  unfold clampUnit
  split
  · exact ⟨le_rfl, zero_le_one⟩
  next hpos => exact ⟨le_min (not_le.mp hpos).le zero_le_one, min_le_right _ _⟩

theorem component_valid {weight : Decimal} (hweight : 0 ≤ weight) (name : String) (raw normalized : Decimal)
    (detail : String) : (component name weight raw normalized detail).Valid := by
  obtain ⟨hlow, hhigh⟩ := clampUnit_bounds normalized
  refine ⟨⟨fourPlaces_nonneg hlow, fourPlaces_le_one hhigh⟩, ?_⟩
  exact FixedPoint.halfUp_nonneg (by norm_num) (mul_nonneg (mul_nonneg hlow hweight) (by norm_num))

theorem scoreComponents_valid (metrics : ScannerMetrics) (ratio : Decimal) :
    ∀ c ∈ scoreComponents metrics ratio, c.Valid := by
  refine List.forall_mem_cons.mpr ⟨component_valid (by norm_num) _ _ _ _, ?_⟩
  refine List.forall_mem_cons.mpr ⟨component_valid (by norm_num) _ _ _ _, ?_⟩
  refine List.forall_mem_cons.mpr ⟨component_valid (by norm_num) _ _ _ _, ?_⟩
  exact List.forall_mem_singleton.mpr (component_valid (by norm_num) _ _ _ _)

theorem scoreOpportunity_valid {metrics : ScannerMetrics} {opportunity : OpportunityScore}
    (h : scoreOpportunity metrics = some opportunity) :
    (0 ≤ opportunity.score ∧ opportunity.score ≤ 100) ∧ ∀ c ∈ opportunity.components, c.Valid := by
  obtain ⟨ratio, _, rfl⟩ := Option.map_eq_some_iff.mp h
  have hvalid := scoreComponents_valid metrics ratio
  refine ⟨⟨le_min (FixedPoint.halfUp_nonneg (by norm_num) (List.sum_nonneg fun x hx => ?_)) (by norm_num),
    min_le_right _ _⟩, hvalid⟩
  obtain ⟨c, hc, rfl⟩ := List.mem_map.mp hx
  exact (hvalid c hc).contribution

end Validity

end Aetheris.Scanner
