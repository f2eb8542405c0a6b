import Aetheris.IndicatorWarmup
import Aetheris.TrendMomentum

namespace Aetheris.Backtest

open Lib Money Autonomous Indicators TrendMomentum

section Series

/-- The strategy bias for every bar, in one pass. -/
def biasSeries (candles : List Candle) (params : TrendMomentumParams) : List (Option StrategyBias) :=
  let price := (closes candles).map some
  let fast := ema price params.emaFast
  let slow := ema price params.emaSlow
  let adxLine := (adx candles params.adxPeriod).adx
  let rsiLine := rsi candles params.rsiPeriod
  let histogram := (macd candles params.macdFast params.macdSlow params.macdSignal).histogram
  (List.range candles.length).map fun index =>
    (required (valueAt fast index) (valueAt slow index) (valueAt adxLine index) (valueAt rsiLine index)
      (valueAt histogram index)).map fun values => (evaluateConditions values params).2.2

/-- The bias that the strategy has when these are all the closed candles. -/
def liveBias (candles : List Candle) (params : TrendMomentumParams) : Option StrategyBias :=
  (computeIndicatorValues candles params).map fun values => (evaluateConditions values params).2.2

/-- The results that the strategy takes its figures from. -/
def requiredResults (candles : List Candle) (params : TrendMomentumParams) : List IndicatorResult :=
  calculateIndicators candles ["ema", "adx", "rsi", "macd"] (requiredIndicatorParams params).1 ++
    calculateIndicators candles ["ema"] (requiredIndicatorParams params).2

end Series

section Results

variable {spec : IndicatorSpec} {candles : List Candle} {params : IndicatorParams} {key : String} {i : Nat}

theorem buildResult_indicator (spec : IndicatorSpec) (candles : List Candle) (params : IndicatorParams) :
    (buildResult spec candles params).indicator = spec.key := by
  rw [buildResult]
  dsimp only
  split
  · rfl
  · split <;> rfl

theorem find?_keyed {β : Type} (f : String → Option β) {keys : List String} (hkey : key ∈ keys) :
    (((keys.map fun key => (key, f key)).find? fun value => value.1 = key).map Prod.snd).join = f key := by
  induction keys with
  | nil => exact absurd hkey List.not_mem_nil
  | cons first keys ih =>
      rw [List.map_cons, List.find?_cons]
      by_cases hfirst : first = key
      · subst hfirst
        rw [decide_eq_true rfl]
        rfl
      · rw [decide_eq_false hfirst]
        exact ih ((List.mem_cons.mp hkey).resolve_left (Ne.symm hfirst))

/-- A figure that is missing until the warm-up is over, and present only with the others of its indicator,
is read as the indicator has it at the last candle. -/
theorem latest_buildResult (hlength : candles.length = i + 1) (hkey : key ∈ spec.valueKeys)
    (hstart : (valueAt ((spec.compute candles params).line key) i).isSome → spec.warmup params ≤ i)
    (hcomplete : (valueAt ((spec.compute candles params).line key) i).isSome →
      ∀ other ∈ spec.valueKeys, (valueAt ((spec.compute candles params).line other) i).isSome) :
    latest (buildResult spec candles params) key = valueAt ((spec.compute candles params).line key) i ∧
      ((buildResult spec candles params).status = .ready ↔
        (valueAt ((spec.compute candles params).line key) i).isSome) := by
  rw [buildResult]
  dsimp only
  have hlast : candles.length - 1 = i := by omega
  rw [hlast]
  by_cases hwarm : candles.length ≤ spec.warmup params
  · rw [if_pos hwarm]
    have hnone : ¬ (valueAt ((spec.compute candles params).line key) i).isSome := fun h => by
      have hready := hstart h
      omega
    refine ⟨?_, iff_of_false IndicatorStatus.noConfusion hnone⟩
    rw [latest, if_neg (by exact IndicatorStatus.noConfusion), Option.not_isSome_iff_eq_none.mp hnone]
  · rw [if_neg hwarm]
    by_cases hall : ∀ other ∈ spec.valueKeys, (valueAt ((spec.compute candles params).line other) i).isSome
    · rw [if_pos (by simpa [List.all_map] using hall)]
      refine ⟨?_, iff_of_true rfl (hall key hkey)⟩
      rw [latest, if_pos rfl]
      exact find?_keyed (fun key => valueAt ((spec.compute candles params).line key) i) hkey
    · have hnone : ¬ (valueAt ((spec.compute candles params).line key) i).isSome := fun h => hall (hcomplete h)
      rw [if_neg (by simpa [List.all_map] using hall)]
      refine ⟨?_, iff_of_false IndicatorStatus.noConfusion hnone⟩
      rw [latest, if_neg (by exact IndicatorStatus.noConfusion), Option.not_isSome_iff_eq_none.mp hnone]

end Results

section Live

variable {candles : List Candle} {i : Nat}

theorem latest_ema (hlength : candles.length = i + 1) (p : IndicatorParams) :
    latest (buildResult emaSpec candles p) "ema" = valueAt (ema ((closes candles).map some) p.emaPeriod) i ∧
      ((buildResult emaSpec candles p).status = .ready ↔
        (valueAt (ema ((closes candles).map some) p.emaPeriod) i).isSome) := by
  refine latest_buildResult hlength (by simp [emaSpec])
    (startsAt_emaOfCloses (by have := p.emaPeriod_bounds; omega) candles i) fun h other hother => ?_
  obtain rfl := List.mem_singleton.mp hother
  exact h

theorem latest_rsi (hlength : candles.length = i + 1) (p : IndicatorParams) :
    latest (buildResult rsiSpec candles p) "rsi" = valueAt (rsi candles p.rsiPeriod) i ∧
      ((buildResult rsiSpec candles p).status = .ready ↔ (valueAt (rsi candles p.rsiPeriod) i).isSome) := by
  refine latest_buildResult hlength (by simp [rsiSpec]) (startsAt_rsi candles p.rsiPeriod i) fun h other hother => ?_
  obtain rfl := List.mem_singleton.mp hother
  exact h

theorem latest_histogram (hlength : candles.length = i + 1) (p : IndicatorParams) :
    latest (buildResult macdSpec candles p) "histogram" =
        valueAt (macd candles p.macdFast p.macdSlow p.macdSignal).histogram i ∧
      ((buildResult macdSpec candles p).status = .ready ↔
        (valueAt (macd candles p.macdFast p.macdSlow p.macdSignal).histogram i).isSome) := by
  have hslow := p.macdSlow_bounds
  have hsignal := p.macdSignal_bounds
  refine latest_buildResult hlength (by simp [macdSpec])
    (startsAt_histogram (by omega) (by omega) candles i) fun h other hother => ?_
  obtain ⟨hmacd, hline⟩ := defined_of_histogram h
  have hkeys : other = "macd" ∨ other = "signal" ∨ other = "histogram" := by simpa [macdSpec] using hother
  rcases hkeys with rfl | rfl | rfl
  · exact hmacd
  · exact hline
  · exact h

theorem latest_adx (hlength : candles.length = i + 1) (p : IndicatorParams) :
    latest (buildResult adxSpec candles p) "adx" = valueAt (adx candles p.adxPeriod).adx i ∧
      ((buildResult adxSpec candles p).status = .ready ↔ (valueAt (adx candles p.adxPeriod).adx i).isSome) := by
  have hperiod := p.adxPeriod_bounds
  refine latest_buildResult hlength (by simp [adxSpec]) (startsAt_adx candles p.adxPeriod i) fun h other hother => ?_
  obtain ⟨hplus, hminus⟩ := defined_of_adx (by omega) h
  have hkeys : other = "adx" ∨ other = "plus_di" ∨ other = "minus_di" := by simpa [adxSpec] using hother
  rcases hkeys with rfl | rfl | rfl
  · exact h
  · exact hplus
  · exact hminus

variable {params : TrendMomentumParams}

theorem requiredResults_eq (candles : List Candle) (params : TrendMomentumParams) :
    requiredResults candles params =
      [buildResult emaSpec candles (requiredIndicatorParams params).1,
        buildResult adxSpec candles (requiredIndicatorParams params).1,
        buildResult rsiSpec candles (requiredIndicatorParams params).1,
        buildResult macdSpec candles (requiredIndicatorParams params).1,
        buildResult emaSpec candles (requiredIndicatorParams params).2] := rfl

/-- The figures that the one pass has at an index. -/
def figuresAt (candles : List Candle) (params : TrendMomentumParams) (i : Nat) : Option IndicatorValues :=
  required (valueAt (ema ((closes candles).map some) params.emaFast) i)
    (valueAt (ema ((closes candles).map some) params.emaSlow) i)
    (valueAt (adx candles params.adxPeriod).adx i) (valueAt (rsi candles params.rsiPeriod) i)
    (valueAt (macd candles params.macdFast params.macdSlow params.macdSignal).histogram i)

theorem biasSeries_eq (candles : List Candle) (params : TrendMomentumParams) :
    biasSeries candles params = (List.range candles.length).map fun i =>
      (figuresAt candles params i).map fun values => (evaluateConditions values params).2.2 := rfl

theorem computeIndicatorValues_eq (candles : List Candle) (params : TrendMomentumParams) :
    computeIndicatorValues candles params =
      required (latest (buildResult emaSpec candles (requiredIndicatorParams params).1) "ema")
        (latest (buildResult emaSpec candles (requiredIndicatorParams params).2) "ema")
        (latest (buildResult adxSpec candles (requiredIndicatorParams params).1) "adx")
        (latest (buildResult rsiSpec candles (requiredIndicatorParams params).1) "rsi")
        (latest (buildResult macdSpec candles (requiredIndicatorParams params).1) "histogram") := by
  have hfast : calculateIndicators candles ["ema", "adx", "rsi", "macd"] (requiredIndicatorParams params).1 =
      [buildResult emaSpec candles (requiredIndicatorParams params).1,
        buildResult adxSpec candles (requiredIndicatorParams params).1,
        buildResult rsiSpec candles (requiredIndicatorParams params).1,
        buildResult macdSpec candles (requiredIndicatorParams params).1] := rfl
  have hslow : calculateIndicators candles ["ema"] (requiredIndicatorParams params).2 =
      [buildResult emaSpec candles (requiredIndicatorParams params).2] := rfl
  rw [computeIndicatorValues]
  simp [hfast, hslow, buildResult_indicator, emaSpec, adxSpec, rsiSpec, macdSpec]

/-- At its last candle the engine has the figures of the one pass. -/
theorem computeIndicatorValues_of_length (hlength : candles.length = i + 1) :
    computeIndicatorValues candles params = figuresAt candles params i := by
  rw [computeIndicatorValues_eq, (latest_ema hlength _).1, (latest_ema hlength _).1, (latest_adx hlength _).1,
    (latest_rsi hlength _).1, (latest_histogram hlength _).1]
  rfl

/-- The figures at an index are those of the candles up to it. -/
theorem figuresAt_take (candles : List Candle) (params : TrendMomentumParams) {n : Nat} (hi : i < n) :
    figuresAt (candles.take n) params i = figuresAt candles params i := by
  have hadx : 1 ≤ params.adxPeriod := by have := params.adxPeriod_bounds; omega
  rw [figuresAt, valueAt_take (causal_emaOfCloses params.emaFast) candles hi,
    valueAt_take (causal_emaOfCloses params.emaSlow) candles hi, valueAt_take (causal_adx hadx) candles hi,
    valueAt_take (causal_rsi params.rsiPeriod) candles hi, valueAt_take (causal_histogram _ _ _) candles hi]
  rfl

theorem required_eq_none {emaFast emaSlow adx rsi histogram : Option Decimal} :
    required emaFast emaSlow adx rsi histogram = none ↔
      ¬ (emaFast.isSome ∧ emaSlow.isSome ∧ adx.isSome ∧ rsi.isSome ∧ histogram.isSome) := by
  cases emaFast <;> cases emaSlow <;> cases adx <;> cases rsi <;> cases histogram <;> simp [required]

/-- The figures are the values of their series. -/
theorem valueAt_of_figuresAt {values : IndicatorValues} (h : figuresAt candles params i = some values) :
    valueAt (ema ((closes candles).map some) params.emaFast) i = some values.emaFast ∧
      valueAt (ema ((closes candles).map some) params.emaSlow) i = some values.emaSlow ∧
      valueAt (adx candles params.adxPeriod).adx i = some values.adx ∧
      valueAt (rsi candles params.rsiPeriod) i = some values.rsi ∧
      valueAt (macd candles params.macdFast params.macdSlow params.macdSignal).histogram i = some values.histogram := by
  rw [figuresAt, required] at h
  obtain ⟨emaFast, hemaFast, h⟩ := Option.bind_eq_some_iff.mp h
  obtain ⟨emaSlow, hemaSlow, h⟩ := Option.bind_eq_some_iff.mp h
  obtain ⟨adx, hadx, h⟩ := Option.bind_eq_some_iff.mp h
  obtain ⟨rsi, hrsi, h⟩ := Option.bind_eq_some_iff.mp h
  obtain ⟨histogram, hhistogram, h⟩ := Option.bind_eq_some_iff.mp h
  obtain rfl := Option.some.inj h
  exact ⟨hemaFast, hemaSlow, hadx, hrsi, hhistogram⟩

/-- The figures are missing where a result that they are taken from is not ready. -/
theorem figuresAt_eq_none (hlength : candles.length = i + 1) :
    figuresAt candles params i = none ↔ ∃ result ∈ requiredResults candles params, result.status ≠ .ready := by
  have hfast := (latest_ema hlength (requiredIndicatorParams params).1).2
  have hslow := (latest_ema hlength (requiredIndicatorParams params).2).2
  have hadx := (latest_adx hlength (requiredIndicatorParams params).1).2
  have hrsi := (latest_rsi hlength (requiredIndicatorParams params).1).2
  have hmacd := (latest_histogram hlength (requiredIndicatorParams params).1).2
  rw [figuresAt, required_eq_none, ← not_iff_not, not_not, requiredResults_eq]
  simp only [List.mem_cons, List.not_mem_nil, or_false, exists_eq_or_imp, exists_eq_left, not_or, not_not, hfast, hslow,
    hadx, hrsi, hmacd]
  exact ⟨fun ⟨h₁, h₂, h₃, h₄, h₅⟩ => ⟨h₁, h₃, h₄, h₅, h₂⟩, fun ⟨h₁, h₃, h₄, h₅, h₂⟩ => ⟨h₁, h₂, h₃, h₄, h₅⟩⟩

theorem length_biasSeries (candles : List Candle) (params : TrendMomentumParams) :
    (biasSeries candles params).length = candles.length := by
  rw [biasSeries_eq, List.length_map, List.length_range]

/-- The bias at a bar is of the candles up to it. -/
theorem causal_biasSeries (params : TrendMomentumParams) : Causal fun candles => biasSeries candles params where
  length candles := length_biasSeries candles params
  take candles n := by
    rw [biasSeries_eq, biasSeries_eq, ← List.map_take, List.take_range, List.length_take]
    refine List.map_congr_left fun i hi => ?_
    have hlt : i < n := (List.mem_range.mp hi).trans_le (Nat.min_le_left _ _)
    rw [figuresAt_take candles params hlt]

theorem liveBias_take (candles : List Candle) (params : TrendMomentumParams) (hi : i < candles.length) :
    liveBias (candles.take (i + 1)) params =
      (figuresAt candles params i).map fun values => (evaluateConditions values params).2.2 := by
  have hlength : (candles.take (i + 1)).length = i + 1 := by
    rw [List.length_take]
    omega
  rw [liveBias, computeIndicatorValues_of_length hlength, figuresAt_take candles params (Nat.lt_succ_self i)]

/-- The one pass has at each bar the bias that the strategy has live when that bar is the last closed one,
and has none exactly where a required indicator is then not ready. -/
theorem bias_is_live (candles : List Candle) (params : TrendMomentumParams) :
    biasSeries candles params = (List.range candles.length).map (fun i => liveBias (candles.take (i + 1)) params) ∧
      ∀ i, (biasSeries candles params)[i]? = some none ↔ i < candles.length ∧
        ∃ result ∈ requiredResults (candles.take (i + 1)) params, result.status ≠ .ready := by
  constructor
  · rw [biasSeries_eq]
    refine List.map_congr_left fun i hi => ?_
    exact (liveBias_take candles params (List.mem_range.mp hi)).symm
  · intro i
    by_cases hi : i < candles.length
    · have hlength : (candles.take (i + 1)).length = i + 1 := by
        rw [List.length_take]
        omega
      rw [← figuresAt_eq_none hlength, figuresAt_take candles params (Nat.lt_succ_self i), biasSeries_eq,
        List.getElem?_map, List.getElem?_range hi]
      simp [hi]
    · rw [List.getElem?_eq_none (by rw [length_biasSeries]; omega)]
      exact iff_of_false (by simp) fun h => hi h.1

end Live

end Aetheris.Backtest
