import Aetheris.BacktestCausality
import Aetheris.IndicatorSymmetry

namespace Aetheris.Backtest

open Lib Money PaperRecords Autonomous Indicators TrendMomentum

section Rules

/-- The same verdict of the other side. -/
def exchange : StrategyBias → StrategyBias
  | .longBias => .shortBias
  | .shortBias => .longBias
  | .neutral => .neutral

/-- The parameters with the two limits of the RSI replaced by their complements, in exchanged roles. -/
def complement (params : TrendMomentumParams) : TrendMomentumParams :=
  { params with
    rsiOverbought := 100 - params.rsiOversold
    rsiOversold := 100 - params.rsiOverbought
    rsiOverbought_bounds := ⟨by linarith [params.rsiOversold_bounds.2], by linarith [params.rsiOversold_bounds.1]⟩
    rsiOversold_bounds := ⟨by linarith [params.rsiOverbought_bounds.2], by linarith [params.rsiOverbought_bounds.1]⟩ }

def Rising (values : IndicatorValues) (params : TrendMomentumParams) : Prop :=
  values.emaSlow < values.emaFast ∧ params.adxMinimum ≤ values.adx ∧
    (50 < values.rsi ∧ values.rsi < params.rsiOverbought) ∧ 0 < values.histogram

def Falling (values : IndicatorValues) (params : TrendMomentumParams) : Prop :=
  values.emaFast < values.emaSlow ∧ params.adxMinimum ≤ values.adx ∧
    (params.rsiOversold < values.rsi ∧ values.rsi < 50) ∧ values.histogram < 0

variable {values values' : IndicatorValues} {params params' : TrendMomentumParams}

theorem long_iff (values : IndicatorValues) (params : TrendMomentumParams) :
    (evaluateConditions values params).1.all ConditionOutcome.satisfied ↔ Rising values params := by
  simp [evaluateConditions, Rising]

theorem short_iff (values : IndicatorValues) (params : TrendMomentumParams) :
    (evaluateConditions values params).2.1.all ConditionOutcome.satisfied ↔ Falling values params := by
  simp [evaluateConditions, Falling]

theorem not_falling_of_rising (h : Rising values params) : ¬ Falling values params :=
  fun h' => lt_asymm h.1 h'.1

theorem bias_eq (values : IndicatorValues) (params : TrendMomentumParams) :
    (evaluateConditions values params).2.2 =
      if (evaluateConditions values params).1.all ConditionOutcome.satisfied then .longBias
      else if (evaluateConditions values params).2.1.all ConditionOutcome.satisfied then .shortBias
      else .neutral := rfl

theorem longBias_iff : (evaluateConditions values params).2.2 = .longBias ↔ Rising values params := by
  rw [bias_eq, ← long_iff]
  split
  · exact iff_of_true rfl ‹_›
  · split
    · exact iff_of_false StrategyBias.noConfusion ‹_›
    · exact iff_of_false StrategyBias.noConfusion ‹_›

theorem shortBias_iff : (evaluateConditions values params).2.2 = .shortBias ↔ Falling values params := by
  rw [bias_eq]
  split
  · rename_i hlong
    exact iff_of_false StrategyBias.noConfusion (not_falling_of_rising ((long_iff values params).mp hlong))
  · rw [← short_iff]
    split
    · exact iff_of_true rfl ‹_›
    · exact iff_of_false StrategyBias.noConfusion ‹_›

theorem bias_ext {x y : StrategyBias} (hlong : x = .longBias ↔ y = .longBias) (hshort : x = .shortBias ↔ y = .shortBias) :
    x = y := by
  cases x with
  | longBias => exact (hlong.mp rfl).symm
  | shortBias => exact (hshort.mp rfl).symm
  | neutral =>
      cases y with
      | longBias => exact hlong.mpr rfl
      | shortBias => exact hshort.mpr rfl
      | neutral => rfl

theorem exchange_eq_longBias {x : StrategyBias} : exchange x = .longBias ↔ x = .shortBias := by
  cases x <;> decide

theorem exchange_eq_shortBias {x : StrategyBias} : exchange x = .shortBias ↔ x = .longBias := by
  cases x <;> decide

/-- The same rules met on the same sides have the same bias. -/
theorem bias_congr (hrising : Rising values' params' ↔ Rising values params)
    (hfalling : Falling values' params' ↔ Falling values params) :
    (evaluateConditions values' params').2.2 = (evaluateConditions values params).2.2 := by
  apply bias_ext
  · rw [longBias_iff, hrising, longBias_iff]
  · rw [shortBias_iff, hfalling, shortBias_iff]

/-- The same rules met on the other sides have the other bias. -/
theorem bias_exchange (hrising : Rising values' params' ↔ Falling values params)
    (hfalling : Falling values' params' ↔ Rising values params) :
    (evaluateConditions values' params').2.2 = exchange (evaluateConditions values params).2.2 := by
  apply bias_ext
  · rw [longBias_iff, hrising, exchange_eq_longBias, shortBias_iff]
  · rw [shortBias_iff, hfalling, exchange_eq_shortBias, longBias_iff]

end Rules

section Figures

variable {candles : List Candle} {params : TrendMomentumParams} {c K : Decimal}

/-- What becomes of the figures when the prices become `a * p + b` and the RSI becomes `g rsi`. -/
def affine (a b : Decimal) (g : Decimal → Decimal) (values : IndicatorValues) : IndicatorValues where
  emaFast := a * values.emaFast + b
  emaSlow := a * values.emaSlow + b
  adx := values.adx
  rsi := g values.rsi
  histogram := a * values.histogram

theorem required_affine (a b : Decimal) (g : Decimal → Decimal) (emaFast emaSlow adx rsi histogram : Option Decimal) :
    required (emaFast.map fun p => a * p + b) (emaSlow.map fun p => a * p + b) adx (rsi.map g) (histogram.map (a * ·)) =
      (required emaFast emaSlow adx rsi histogram).map (affine a b g) := by
  cases emaFast <;> cases emaSlow <;> cases adx <;> cases rsi <;> cases histogram <;> rfl

theorem figuresAt_affine {a b : Decimal} {g : Decimal → Decimal} {candles' : List Candle} {params' : TrendMomentumParams}
    (hcloses : ClosesOn a b candles candles') (hfast : params'.emaFast = params.emaFast)
    (hslow : params'.emaSlow = params.emaSlow)
    (hmacd : (params'.macdFast, params'.macdSlow, params'.macdSignal) = (params.macdFast, params.macdSlow, params.macdSignal))
    (hadx : (adx candles' params'.adxPeriod).adx = (adx candles params.adxPeriod).adx)
    (hrsi : rsi candles' params'.rsiPeriod = onValues g (rsi candles params.rsiPeriod)) (i : Nat) :
    figuresAt candles' params' i = (figuresAt candles params i).map (affine a b g) := by
  have hemaFast := params.emaFast_bounds
  have hemaSlow := params.emaSlow_bounds
  have hmacdFast := params.macdFast_bounds
  have hmacdSlow := params.macdSlow_bounds
  injection hmacd with hmacdFast' hrest
  injection hrest with hmacdSlow' hmacdSignal'
  rw [figuresAt, hfast, hslow, hmacdFast', hmacdSlow', hmacdSignal', emaOfCloses_affine hcloses (by omega),
    emaOfCloses_affine hcloses (by omega), hadx, hrsi, histogram_affine hcloses (by omega) (by omega),
    valueAt_onValues, valueAt_onValues, valueAt_onValues, valueAt_onValues, required_affine]
  rfl

theorem figuresAt_scaled (hc : 0 < c) (candles : List Candle) (params : TrendMomentumParams) (i : Nat) :
    figuresAt (scaled c hc candles) params i = (figuresAt candles params i).map (affine c 0 id) := by
  refine figuresAt_affine (closesOn_scaled hc candles) rfl rfl rfl (adx_scale hc candles _) ?_ i
  rw [rsi_scale hc (closesOn_scaled hc candles), onValues, Option.map_id, List.map_id]

theorem figuresAt_reflected (h : ∀ candle ∈ candles, candle.high < K) (params : TrendMomentumParams) (i : Nat) :
    figuresAt (reflected K candles h) (complement params) i =
      (figuresAt candles params i).map (affine (-1) K (100 - ·)) := by
  have hperiod : 1 ≤ params.rsiPeriod := (by decide : 1 ≤ 2).trans params.rsiPeriod_bounds.1
  exact figuresAt_affine (closesOn_reflected h) rfl rfl rfl (adx_reflected h _)
    (rsi_reflected hperiod (closesOn_reflected h)) i

theorem bias_scaled (hc : 0 < c) (values : IndicatorValues) (params : TrendMomentumParams) :
    (evaluateConditions (affine c 0 id values) params).2.2 = (evaluateConditions values params).2.2 := by
  apply bias_congr
  · simp [Rising, affine, mul_lt_mul_iff_right₀ hc, hc]
  · simp [Falling, affine, mul_lt_mul_iff_right₀ hc, mul_neg_iff, hc, hc.not_gt]

theorem bias_reflected (K : Decimal) (values : IndicatorValues) (params : TrendMomentumParams) :
    (evaluateConditions (affine (-1) K (100 - ·) values) (complement params)).2.2 =
      exchange (evaluateConditions values params).2.2 := by
  apply bias_exchange
  · simp only [Rising, Falling, affine, complement]
    constructor
    · rintro ⟨h₁, h₂, ⟨h₃, h₄⟩, h₅⟩
      exact ⟨by linarith, h₂, ⟨by linarith, by linarith⟩, by linarith⟩
    · rintro ⟨h₁, h₂, ⟨h₃, h₄⟩, h₅⟩
      exact ⟨by linarith, h₂, ⟨by linarith, by linarith⟩, by linarith⟩
  · simp only [Rising, Falling, affine, complement]
    constructor
    · rintro ⟨h₁, h₂, ⟨h₃, h₄⟩, h₅⟩
      exact ⟨by linarith, h₂, ⟨by linarith, by linarith⟩, by linarith⟩
    · rintro ⟨h₁, h₂, ⟨h₃, h₄⟩, h₅⟩
      exact ⟨by linarith, h₂, ⟨by linarith, by linarith⟩, by linarith⟩

theorem biasSeries_scaled (hc : 0 < c) (candles : List Candle) (params : TrendMomentumParams) :
    biasSeries (scaled c hc candles) params = biasSeries candles params := by
  rw [biasSeries_eq, biasSeries_eq, length_scaled]
  refine List.map_congr_left fun i _ => ?_
  rw [figuresAt_scaled, Option.map_map]
  exact congrArg (fun f => Option.map f (figuresAt candles params i)) (funext fun values => bias_scaled hc values params)

theorem biasSeries_reflected (h : ∀ candle ∈ candles, candle.high < K) (params : TrendMomentumParams) :
    biasSeries (reflected K candles h) (complement params) = (biasSeries candles params).map (Option.map exchange) := by
  rw [biasSeries_eq, biasSeries_eq, length_reflected, List.map_map]
  refine List.map_congr_left fun i _ => ?_
  rw [figuresAt_reflected, Option.map_map, Function.comp_apply, Option.map_map]
  exact congrArg (fun f => Option.map f (figuresAt candles params i)) (funext fun values => bias_reflected K values params)

/-- What the strategy says live is the last entry of the one pass. -/
theorem liveBias_eq (candles : List Candle) (params : TrendMomentumParams) :
    liveBias candles params = (biasSeries candles params).getLast?.join := by
  cases hlength : candles.length with
  | zero =>
      obtain rfl := List.length_eq_zero_iff.mp hlength
      rw [liveBias, computeIndicatorValues_eq]
      simp [biasSeries_eq, latest, buildResult, required]
  | succ n =>
      rw [liveBias, computeIndicatorValues_of_length hlength, biasSeries_eq, hlength, List.range_succ, List.map_append,
        List.map_singleton, List.getLast?_append]
      rfl

end Figures

section Symmetry

/-- The bias is the same in every price unit, at every bar and live. Where the candles are seen from a price above
all of theirs, and the limits of the RSI with them, the two sides change places and nothing else does. -/
theorem bias_symmetric (candles : List Candle) (params : TrendMomentumParams) :
    (∀ (c : Decimal) (hc : 0 < c), biasSeries (scaled c hc candles) params = biasSeries candles params ∧
      liveBias (scaled c hc candles) params = liveBias candles params) ∧
    ∀ (K : Decimal) (h : ∀ candle ∈ candles, candle.high < K),
      biasSeries (reflected K candles h) (complement params) = (biasSeries candles params).map (Option.map exchange) ∧
        liveBias (reflected K candles h) (complement params) = (liveBias candles params).map exchange := by
  constructor
  · intro c hc
    refine ⟨biasSeries_scaled hc candles params, ?_⟩
    rw [liveBias_eq, biasSeries_scaled, liveBias_eq]
  · intro K h
    refine ⟨biasSeries_reflected h params, ?_⟩
    rw [liveBias_eq, biasSeries_reflected, liveBias_eq, List.getLast?_map]
    cases (biasSeries candles params).getLast? <;> rfl

theorem exampleRise_below : ∀ candle ∈ exampleRise, candle.high < 200 := by
  intro candle hcandle
  simp only [exampleRise, List.mem_cons, List.not_mem_nil, or_false] at hcandle
  rcases hcandle with rfl | rfl | rfl | rfl | rfl <;> norm_num [exampleCandle]

theorem bias_symmetric_example :
    biasSeries (scaled 3 three_pos exampleRise) exampleParams =
        [none, none, none, some .longBias, some .longBias] ∧
      biasSeries (reflected 200 exampleRise exampleRise_below) (complement exampleParams) =
        [none, none, none, some .shortBias, some .shortBias] := by
  have hbias : biasSeries exampleRise exampleParams = [none, none, none, some .longBias, some .longBias] := by
    decide +kernel
  constructor
  · exact ((bias_symmetric exampleRise exampleParams).1 3 three_pos).1.trans hbias
  · have hreflected := ((bias_symmetric exampleRise exampleParams).2 200 exampleRise_below).1
    rw [hbias] at hreflected
    exact hreflected

end Symmetry

end Aetheris.Backtest
