import Aetheris.BacktestBooks
import Aetheris.Lib.OnePass

namespace Aetheris.Backtest

open Lib OnePass Money Clock Enums Autonomous Indicators TrendMomentum Relation

section Declines

variable {values : List Decimal} {x y z : Decimal}

/-- How far equity is down, in percent of where it was; from nothing it cannot fall. -/
def declinePercent (high low : Decimal) : Decimal := if 0 < high then (high - low) / high * 100 else 0

theorem declinePercent_self (x : Decimal) : declinePercent x x = 0 := by
  rw [declinePercent, sub_self, zero_div, zero_mul, ite_self]

theorem declinePercent_nonneg (h : y ≤ x) : 0 ≤ declinePercent x y := by
  rw [declinePercent]
  split
  · rename_i hx
    have hfall : 0 ≤ x - y := sub_nonneg.mpr h
    positivity
  · exact le_rfl

/-- The higher the peak, the more is lost down to the same equity, in percent too. -/
theorem declinePercent_mono (hz : 0 ≤ z) (hxy : x ≤ y) (hzy : z ≤ y) : declinePercent x z ≤ declinePercent y z := by
  by_cases hx : 0 < x
  · have hy : 0 < y := hx.trans_le hxy
    have hshare : z / y ≤ z / x := div_le_div_of_nonneg_left hz hx hxy
    rw [declinePercent, declinePercent, if_pos hx, if_pos hy, sub_div, sub_div, div_self hx.ne', div_self hy.ne']
    linarith
  · rw [declinePercent, if_neg hx]
    exact declinePercent_nonneg hzy

theorem declinePercent_rises (h : ∀ z ∈ values, 0 ≤ z) : Rises declinePercent values :=
  fun _ _ z hz hxy hzy => declinePercent_mono (h z hz) hxy hzy

theorem sub_rises (values : List Decimal) : Rises (fun x y : Decimal => x - y) values :=
  fun _ _ z _ hxy _ => sub_le_sub_right hxy z

theorem falls_nonneg {peak d : Decimal} (h : d ∈ falls declinePercent peak values) : 0 ≤ d := by
  induction values generalizing peak with
  | nil => exact absurd h List.not_mem_nil
  | cons value rest ih =>
      rcases List.mem_cons.mp h with rfl | h
      · exact declinePercent_nonneg (le_max_right _ _)
      · exact ih h

theorem max?_getD_of_nonneg (h : ∀ x ∈ values, 0 ≤ x) : values.max?.getD 0 = values.foldl max 0 := by
  cases values with
  | nil => rfl
  | cons first rest =>
      rw [List.max?_cons', Option.getD_some, List.foldl_cons, max_eq_right (h first List.mem_cons_self)]

/-- Rounding keeps the order, and so what is greatest. -/
theorem max?_map_percent (q : Rounding) (values : List Decimal) :
    (values.map q.percent).max?.getD 0 = q.percent (values.max?.getD 0) := by
  have hfold : ∀ (rest : List Decimal) first, (rest.map q.percent).foldl max (q.percent first) =
      q.percent (rest.foldl max first) := by
    intro rest
    induction rest with
    | nil => exact fun _ => rfl
    | cons value rest ih =>
        intro first
        have hmax : max (q.percent first) (q.percent value) = q.percent (max first value) := ((q.mono 4).map_max).symm
        rw [List.map_cons, List.foldl_cons, List.foldl_cons, hmax, ih]
  cases values with
  | nil => exact (q.zero 4).symm
  | cons first rest =>
      rw [List.map_cons, List.max?_cons', List.max?_cons', Option.getD_some, Option.getD_some, hfold]

end Declines

section Chart

variable {settings : BacktestConfig} {s s' : Simulation} {bar : Candle} {k : Nat}

/-- The peak and the drawdowns are those of the equity on the chart. -/
structure Charted (settings : BacktestConfig) (s : Simulation) : Prop where
  peak : s.peak = (s.curve.map EquityPoint.equity).foldl max settings.startingBalance
  drawdowns : s.curve.map EquityPoint.drawdownPercent =
    falls declinePercent settings.startingBalance (s.curve.map EquityPoint.equity)
  barsInPosition : s.barsInPosition = s.curve.countP EquityPoint.inPosition

theorem Charted.mark (h : Charted settings s) (bar : Candle) : Charted settings (mark unrounded bar s) := by
  have hnonneg := declinePercent_nonneg (le_max_right s.peak (s.equity + unrealised s.position bar.close))
  refine ⟨?_, ?_, ?_⟩
  · simp only [Backtest.mark, unrounded_money, List.map_append, List.map_cons, List.map_nil, List.foldl_append,
      List.foldl_cons, List.foldl_nil, ← h.peak]
  · simp only [Backtest.mark, unrounded_money, List.map_append, List.map_cons, List.map_nil, falls_append, ← h.peak,
      h.drawdowns]
    congr 2
    exact max_eq_left hnonneg
  · simp only [Backtest.mark, List.countP_append, List.countP_singleton, h.barsInPosition]
    split <;> simp

theorem Charted.move {warmup : Nat} {biases : List (Option StrategyBias)} (h : Charted settings s)
    (hmove : Move unrounded settings warmup biases k bar s s') : Charted settings s' := by
  cases hmove with
  | flipped => exact ⟨h.peak, h.drawdowns, h.barsInPosition⟩
  | entered => exact ⟨h.peak, h.drawdowns, h.barsInPosition⟩
  | exited => exact ⟨h.peak, h.drawdowns, h.barsInPosition⟩
  | held => exact ⟨h.peak, h.drawdowns, h.barsInPosition⟩
  | marked => exact h.mark bar
  | scheduled => exact ⟨h.peak, h.drawdowns, h.barsInPosition⟩

theorem charted_loop (candles : List Candle) (settings : BacktestConfig) (params : TrendMomentumParams) :
    Charted settings (loop unrounded candles settings params) := by
  rw [loop_eq_stateAfter]
  exact stateAfter_invariant (fun _ => Charted settings) ⟨rfl, rfl, rfl⟩ (fun _ _ h => h)
    (fun _ _ _ _ _ hmove h => h.move hmove) le_rfl

end Chart

section Summary

variable {candles : List Candle} {settings : BacktestConfig} {params : TrendMomentumParams}

/-- What the metrics say of the equity and of the trades, however they are added up: the greatest fall of equity to
any later point, the longest runs of trades of a kind, and sums that leave nothing out. -/
structure Summarises (settings : BacktestConfig) (metrics : BacktestMetrics) (reported exact : BacktestResult) : Prop where
  drawdownPercent : ∃ greatest, metrics.maxDrawdownPercent = quantize 4 greatest ∧
    IsGreatest {d | Falls declinePercent (settings.startingBalance :: exact.equityCurve.map EquityPoint.equity) d} greatest
  drawdownAbsolute : ∃ greatest, metrics.maxDrawdownAbsolute = quantize 8 greatest ∧
    IsGreatest {d | Falls (fun x y : Decimal => x - y)
      (settings.startingBalance :: reported.equityCurve.map EquityPoint.equity) d} greatest
  losing : IsGreatest {n | ∃ run, run <:+: reported.trades ∧ Unbroken (fun t => decide (t.netPnl < 0)) run n}
    metrics.maxConsecutiveLosses
  winning : IsGreatest {n | ∃ run, run <:+: reported.trades ∧ Unbroken (fun t => decide (0 < t.netPnl)) run n}
    metrics.maxConsecutiveWins
  exposure : metrics.exposurePercent =
    quantize 4 (reported.equityCurve.countP EquityPoint.inPosition / reported.equityCurve.length * 100)
  trades : metrics.winningTrades + metrics.losingTrades + metrics.breakevenTrades = reported.trades.length
  profit : metrics.grossProfit - metrics.grossLoss = metrics.netPnl

theorem splits_length (trades : List Trade) :
    (trades.filter fun t => 0 < t.netPnl).length + (trades.filter fun t => t.netPnl < 0).length ≤ trades.length := by
  induction trades with
  | nil => exact le_rfl
  | cons t rest ih =>
      simp only [List.filter_cons, decide_eq_true_eq, List.length_cons]
      rcases lt_trichotomy t.netPnl 0 with h | h | h
      · rw [if_neg h.not_gt, if_pos h, List.length_cons]
        omega
      · rw [if_neg h.not_gt, if_neg h.not_lt]
        omega
      · rw [if_pos h, if_neg h.not_gt, List.length_cons]
        omega

theorem splits_sum (trades : List Trade) :
    ((trades.filter fun t => 0 < t.netPnl).map Trade.netPnl).sum +
      ((trades.filter fun t => t.netPnl < 0).map Trade.netPnl).sum = (trades.map Trade.netPnl).sum := by
  induction trades with
  | nil => exact add_zero _
  | cons t rest ih =>
      simp only [List.filter_cons, decide_eq_true_eq, List.map_cons, List.sum_cons]
      rcases lt_trichotomy t.netPnl 0 with h | h | h
      · rw [if_neg h.not_gt, if_pos h, List.map_cons, List.sum_cons, ← ih]
        ring
      · rw [if_neg h.not_gt, if_neg h.not_lt, ih, h, zero_add]
      · rw [if_pos h, if_neg h.not_gt, List.map_cons, List.sum_cons, ← ih]
        ring

theorem endOfData_barsInPosition (q : Rounding) (settings : BacktestConfig) (candles : List Candle) (s : Simulation) :
    (endOfData q settings candles s).barsInPosition = s.barsInPosition := by
  rw [endOfData]
  split <;> rfl

theorem quantized_percent_percent (value : Decimal) : quantized.percent (quantized.percent value) = quantize 4 value :=
  quantize_of_onGrid (quantize_onGrid 4 value)

theorem summarises_drawdownPercent (hascending : candles.Pairwise fun a b => a.openTime < b.openTime)
    (settings : BacktestConfig) (params : TrendMomentumParams) :
    ∃ greatest, (completedMetrics quantized candles settings params).maxDrawdownPercent = quantize 4 greatest ∧
      IsGreatest {d | Falls declinePercent
        (settings.startingBalance :: (loop unrounded candles settings params).curve.map EquityPoint.equity) d} greatest := by
  have hcharted := charted_loop candles settings params
  have hsolvent := solvent_stateAfter unrounded settings params hascending le_rfl
  rw [← loop_eq_stateAfter] at hsolvent
  have hequities : ∀ z ∈ (loop unrounded candles settings params).curve.map EquityPoint.equity, 0 ≤ z := by
    intro z hz
    obtain ⟨point, hpoint, rfl⟩ := List.mem_map.mp hz
    exact (hsolvent.curve point hpoint).1
  refine ⟨_, ?_, isGreatest_falls declinePercent_self (declinePercent_rises hequities)⟩
  have hreported : (completedMetrics quantized candles settings params).maxDrawdownPercent =
      quantized.percent ((((loop unrounded candles settings params).curve.map EquityPoint.drawdownPercent).map
        quantized.percent).max?.getD 0) := by
    rw [completedMetrics, computeMetrics, endOfData_curve, loop_rounded quantized, List.map_map]
    simp only [Simulation.rounded, List.map_map]
    rfl
  rw [hreported, max?_map_percent, quantized_percent_percent, hcharted.drawdowns, max?_getD_of_nonneg]
  exact fun d hd => falls_nonneg hd

theorem summarises_drawdownAbsolute (candles : List Candle) (settings : BacktestConfig) (params : TrendMomentumParams) :
    ∃ greatest, (completedMetrics quantized candles settings params).maxDrawdownAbsolute = quantize 8 greatest ∧
      IsGreatest {d | Falls (fun x y : Decimal => x - y)
        (settings.startingBalance :: (loop quantized candles settings params).curve.map EquityPoint.equity) d} greatest := by
  refine ⟨_, ?_, isGreatest_falls sub_self (sub_rises _)⟩
  rw [completedMetrics, computeMetrics, endOfData_curve, ← foldl_falls, List.foldl_map]
  rfl

theorem summarises_exposure (candles : List Candle) (settings : BacktestConfig) (params : TrendMomentumParams) :
    (completedMetrics quantized candles settings params).exposurePercent =
      quantize 4 ((loop quantized candles settings params).curve.countP EquityPoint.inPosition /
        (loop quantized candles settings params).curve.length * 100) := by
  have hbars : (loop quantized candles settings params).barsInPosition =
      (loop quantized candles settings params).curve.countP EquityPoint.inPosition := by
    rw [loop_rounded quantized]
    refine (charted_loop candles settings params).barsInPosition.trans ?_
    rw [Simulation.rounded, List.countP_map]
    rfl
  rw [completedMetrics, computeMetrics, endOfData_curve, endOfData_barsInPosition, hbars]
  by_cases hempty : (loop quantized candles settings params).curve = []
  · rw [if_neg (not_not.mpr hempty), hempty]
    simp [quantize_of_onGrid (⟨0, by simp⟩ : OnGrid 4 0)]
  · rw [if_pos hempty]
    rfl

theorem onGrid_money {trades : List Trade} (h : ∀ t ∈ trades, OnGrid 8 t.netPnl) {hit : Trade → Bool} :
    quantized.money ((trades.filter hit).map Trade.netPnl).sum = ((trades.filter hit).map Trade.netPnl).sum :=
  quantize_of_onGrid (onGrid_sum fun t ht => h t (List.mem_filter.mp ht).1)

theorem computeMetrics_profit {trades : List Trade} (h : ∀ t ∈ trades, OnGrid 8 t.netPnl) (curve : List EquityPoint)
    (settings : BacktestConfig) (barsInPosition tradesOpenAtEnd : Nat) :
    (computeMetrics quantized trades curve settings barsInPosition tradesOpenAtEnd).grossProfit -
        (computeMetrics quantized trades curve settings barsInPosition tradesOpenAtEnd).grossLoss =
      (computeMetrics quantized trades curve settings barsInPosition tradesOpenAtEnd).netPnl := by
  have hnet : quantized.money (trades.map Trade.netPnl).sum = (trades.map Trade.netPnl).sum :=
    quantize_of_onGrid (onGrid_sum h)
  have hloss (value : Decimal) : quantized.money (-value) = -quantized.money value := quantized.neg 8 value
  rw [computeMetrics]
  dsimp only
  rw [hloss, onGrid_money h, onGrid_money h, hnet, sub_neg_eq_add, splits_sum]

/-- The metrics of a run that completes are what an account of the whole curve and of all the trades would say. -/
theorem metrics_summarise (candles : List Candle) (hascending : candles.Pairwise fun a b => a.openTime < b.openTime)
    (settings : BacktestConfig) (params : TrendMomentumParams) (h : warmupBars params + 2 ≤ candles.length) :
    ∃ metrics, (runBacktest candles settings params).metrics = some metrics ∧
      Summarises settings metrics (runBacktest candles settings params) (simulate unrounded candles settings params) := by
  obtain ⟨htrades, hcurve⟩ := simulate_of_length quantized settings h
  rw [← endOfData_trades] at htrades
  have hgrid : ∀ t ∈ (runBacktest candles settings params).trades, OnGrid 8 t.netPnl := by
    rw [(reports settings h).trades]
    intro t ht
    obtain ⟨exact_, -, rfl⟩ := List.mem_map.mp ht
    exact quantize_onGrid 8 _
  refine ⟨_, simulate_metrics h, ?_, ?_, ?_, ?_, ?_, ?_, ?_⟩
  · rw [(simulate_of_length unrounded settings h).2]
    exact summarises_drawdownPercent hascending settings params
  · rw [runBacktest, hcurve]
    exact summarises_drawdownAbsolute candles settings params
  · rw [runBacktest, htrades]
    exact isGreatest_longest _ _
  · rw [runBacktest, htrades]
    exact isGreatest_longest _ _
  · rw [runBacktest, hcurve]
    exact summarises_exposure candles settings params
  · rw [runBacktest, htrades]
    have hlength := splits_length (endOfData quantized settings candles (loop quantized candles settings params)).trades
    simp only [completedMetrics, computeMetrics]
    omega
  · rw [runBacktest, htrades] at hgrid
    exact computeMetrics_profit hgrid _ _ _ _

theorem metrics_summarise_example :
    ∃ metrics, (runBacktest exampleRise exampleConfig exampleParams).metrics = some metrics ∧
      Summarises exampleConfig metrics (runBacktest exampleRise exampleConfig exampleParams)
        (simulate unrounded exampleRise exampleConfig exampleParams) :=
  metrics_summarise exampleRise (by decide) exampleConfig exampleParams (by decide)

end Summary

end Aetheris.Backtest
