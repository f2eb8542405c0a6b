import Aetheris.BacktestSolvency

namespace Aetheris.Backtest

open Lib Money Clock Enums Autonomous Indicators TrendMomentum Relation

section Quantized

theorem unrounded_money (value : Decimal) : unrounded.money value = value := rfl

/-- A whole number of units of the last place. -/
def OnGrid (places : Nat) (value : Decimal) : Prop := ∃ n : ℤ, value = n / 10 ^ places

theorem quantize_onGrid (places : Nat) (value : Decimal) : OnGrid places (quantize places value) := ⟨_, rfl⟩

theorem quantize_of_onGrid {places : Nat} {value : Decimal} (h : OnGrid places value) :
    quantize places value = value := by
  obtain ⟨n, rfl⟩ := h
  have hunit : (10 : Decimal) ^ places ≠ 0 := by positivity
  rw [quantize, div_mul_cancel₀ _ hunit, FixedPoint.halfEven_intCast]

theorem onGrid_sum {α : Type} {places : Nat} {f : α → Decimal} {l : List α} (h : ∀ a ∈ l, OnGrid places (f a)) :
    OnGrid places (l.map f).sum := by
  induction l with
  | nil => exact ⟨0, by simp⟩
  | cons a l ih =>
      obtain ⟨m, hm⟩ := h a List.mem_cons_self
      obtain ⟨n, hn⟩ := ih fun b hb => h b (List.mem_cons_of_mem a hb)
      refine ⟨m + n, ?_⟩
      rw [List.map_cons, List.sum_cons, hm, hn, ← add_div]
      push_cast
      rfl

/-- Rounding moves a figure by half a unit of the last place at most. -/
theorem abs_quantize_sub_le (places : Nat) (value : Decimal) :
    |quantize places value - value| ≤ 1 / (2 * 10 ^ places) := by
  have hunit : (0 : Decimal) < 10 ^ places := by positivity
  have hscaled : quantize places value - value =
      (FixedPoint.halfEven (value * 10 ^ places) - value * 10 ^ places) / 10 ^ places := by
    rw [quantize, sub_div, mul_div_cancel_right₀ _ hunit.ne']
  rw [hscaled, abs_div, abs_of_pos hunit, div_le_iff₀ hunit]
  refine (FixedPoint.abs_halfEven_sub_le _).trans_eq ?_
  field_simp

theorem abs_sum_sub_le {α : Type} (places : Nat) (f : α → Decimal) (l : List α) :
    |(l.map fun a => quantize places (f a)).sum - (l.map f).sum| ≤ l.length * (1 / (2 * 10 ^ places)) := by
  induction l with
  | nil => simp
  | cons a l ih =>
      have hfirst := abs_quantize_sub_le places (f a)
      rw [List.map_cons, List.map_cons, List.sum_cons, List.sum_cons, List.length_cons, add_sub_add_comm]
      push_cast
      refine (abs_add_le _ _).trans ?_
      linarith

end Quantized

section Books

variable (settings : BacktestConfig)

/-- The trades carry the balance from one to the next. -/
def Carries (t u : Trade) : Prop := u.equityAfter = t.equityAfter + u.netPnl

/-- The exact books between two bars. -/
structure Booked (s : Simulation) : Prop where
  equity : s.equity = settings.startingBalance + (s.trades.map Trade.netPnl).sum
  last : ∀ t ∈ s.trades.getLast?, t.equityAfter = s.equity
  carries : Walk Carries (fun t => t.equityAfter = settings.startingBalance + t.netPnl) s.trades
  position : ∀ p ∈ s.position, 0 < p.quantity

variable {settings} {s s' : Simulation} {p : OpenPosition} {k : Nat} {bar : Candle}

theorem Booked.close (h : Booked settings s) (p : OpenPosition) (rawPrice : Decimal) (reason : ExitReason)
    (exitTime : Timestamp) :
    Booked settings { closePosition unrounded settings p rawPrice reason exitTime k s with position := none } where
  equity := by
    change s.equity + _ = settings.startingBalance + ((s.trades ++ [_]).map Trade.netPnl).sum
    rw [List.map_append, List.sum_append, h.equity, ← add_assoc, List.map_singleton, List.sum_singleton]
    rfl
  last t ht := by
    obtain rfl := Option.some.inj (List.getLast?_concat.symm.trans ht)
    rfl
  carries := by
    refine h.carries.snoc (fun hnil => ?_) fun t ht => ?_
    · have hequity := h.equity
      rw [hnil, List.map_nil, List.sum_nil, add_zero] at hequity
      exact congrArg (· + _) hequity
    · exact congrArg (· + _) (h.last t ht).symm
  position p hp := absurd hp (Option.not_mem_none p)

theorem enter_quantity (settings : BacktestConfig) (side : PositionSide) (bar : Candle) (index : Nat)
    {fill equity : Decimal} (hequity : 0 < equity) (hfill : 0 < fill) :
    0 < (enter settings side bar index fill equity).quantity := by
  have hmargin := (enter_margin settings side bar index fill hequity).1
  have hleverage := settings.leverage_bounds.1
  exact div_pos (mul_pos hmargin (by linarith)) hfill

theorem Booked.move {warmup : Nat} {biases : List (Option StrategyBias)}
    (hmove : Move unrounded settings warmup biases k bar s s') (h : Booked settings s) : Booked settings s' := by
  cases hmove with
  | flipped p => exact h.close p _ _ _
  | entered side _ _ _ hequity hfill =>
      refine ⟨h.equity, h.last, h.carries, fun p hp => ?_⟩
      obtain rfl := Option.some.inj hp
      exact enter_quantity settings side bar k hequity hfill
  | exited p => exact h.close (withRange bar p) _ _ _
  | held p hp _ =>
      refine ⟨h.equity, h.last, h.carries, fun p' hp' => ?_⟩
      obtain rfl := Option.some.inj hp'
      exact h.position p hp
  | marked => exact ⟨h.equity, h.last, h.carries, h.position⟩
  | scheduled => exact ⟨h.equity, h.last, h.carries, h.position⟩

theorem booked_loop (candles : List Candle) (settings : BacktestConfig) (params : TrendMomentumParams) :
    Booked settings (loop unrounded candles settings params) := by
  rw [loop_eq_stateAfter]
  refine stateAfter_invariant (fun _ => Booked settings) ?_ (fun _ _ h => h)
    (fun _ _ _ _ _ hmove h => h.move hmove) le_rfl
  exact ⟨(add_zero _).symm, fun t ht => absurd ht (Option.not_mem_none t), Walk.nil,
    fun p hp => absurd hp (Option.not_mem_none p)⟩

end Books

section Marking

variable {q : Rounding} {settings : BacktestConfig} {warmup : Nat} {biases : List (Option StrategyBias)} {k last : Nat}
  {s : Simulation}

/-- The last point of the curve is the bar's close marked. -/
theorem onBar_marked (bar : Candle) :
    ∃ point, (onBar q settings warmup biases last k bar s).curve.getLast? = some point ∧
      point.equity = q.money ((onBar q settings warmup biases last k bar s).equity +
        unrealised (onBar q settings warmup biases last k bar s).position bar.close) := by
  have hsettled := onBar_settled q settings warmup biases k last s bar
  have hcurve := congrArg Simulation.curve hsettled
  have hequity := congrArg Simulation.equity hsettled
  have hposition := congrArg Simulation.position hsettled
  simp only [Simulation.settled] at hcurve hequity hposition
  rw [hcurve, hequity, hposition]
  exact ⟨_, List.getLast?_concat, rfl⟩

/-- The last point of the run's curve is its last close marked. -/
theorem loop_marked (q : Rounding) (settings : BacktestConfig) {candles : List Candle} {final : Candle}
    (params : TrendMomentumParams)
    (hfinal : candles.getLast? = some final) :
    ∃ point, (loop q candles settings params).curve.getLast? = some point ∧
      point.equity = q.money ((loop q candles settings params).equity +
        unrealised (loop q candles settings params).position final.close) := by
  obtain ⟨front, rfl⟩ := List.getLast?_eq_some_iff.mp hfinal
  rw [loop, onBars_append]
  exact onBar_marked final

end Marking

section ExitCosts

variable {settings : BacktestConfig} {p : OpenPosition} {price : Decimal}

/-- What an exit costs next to the mark at its price: the slippage, and the fee on the fill. -/
theorem exit_cost (settings : BacktestConfig) (p : OpenPosition) (price : Decimal) :
    ∃ fill factor, exitFill settings p price = price * fill ∧ fill = 1 + factor * (settings.slippageBps / 10000) ∧
      (factor = 1 ∨ factor = -1) ∧
      grossPnl p (exitFill settings p price) - tradeFees settings p (exitFill settings p price) =
        grossPnl p price - p.entryFee -
          p.quantity * price * (settings.slippageBps / 10000 + fill * settings.feeRate) := by
  by_cases hlong : p.side = .long
  · refine ⟨1 - settings.slippageBps / 10000, -1, ?_, by ring, Or.inr rfl, ?_⟩
    · simp [exitFill, applySlippage, hlong]
    · simp only [exitFill, applySlippage, grossPnl, tradeFees, hlong, decide_true, if_pos]
      simp
      ring
  · refine ⟨1 + settings.slippageBps / 10000, 1, ?_, by ring, Or.inl rfl, ?_⟩
    · simp [exitFill, applySlippage, hlong]
    · simp only [exitFill, applySlippage, grossPnl, tradeFees, hlong, decide_false]
      simp
      ring

theorem max_sub_eq_iff {x cost bound : Decimal} (hcost : 0 ≤ cost) :
    max (x - cost) bound = max x bound ↔ cost = 0 ∨ x ≤ bound := by
  constructor
  · intro h
    by_contra hnot
    obtain ⟨hne, hlt⟩ := not_or.mp hnot
    have hpos : 0 < cost := lt_of_le_of_ne hcost (Ne.symm hne)
    rw [max_eq_left (not_le.mp hlt).le] at h
    have hless : max (x - cost) bound < x := max_lt (by linarith) (not_le.mp hlt)
    linarith
  · rintro (rfl | hle)
    · rw [sub_zero]
    · rw [max_eq_right hle, max_eq_right (by linarith)]

/-- The exit at a price makes what the mark says, if it costs nothing or the mark is at the margin already. -/
theorem tradeNet_eq_unrealised_iff (hquantity : 0 < p.quantity) (hprice : 0 ≤ price) :
    tradeNet settings p (exitFill settings p price) = unrealised (some p) price ↔
      (settings.feeBps = 0 ∧ settings.slippageBps = 0) ∨ price = 0 ∨ grossPnl p price - p.entryFee ≤ -p.margin := by
  obtain ⟨fill, factor, -, hfill, hfactor, hnet⟩ := exit_cost settings p price
  have hslip := settings.slippageBps_bounds
  have hfee := settings.feeBps_bounds
  have hrate : settings.feeRate = settings.feeBps / 10000 := rfl
  have hfillPos : 0 < fill := by
    rw [hfill]
    rcases hfactor with rfl | rfl <;> linarith
  have hpart : 0 ≤ settings.slippageBps / 10000 := div_nonneg hslip.1 (by norm_num)
  have hrateNonneg : 0 ≤ settings.feeRate := by
    rw [hrate]
    exact div_nonneg hfee.1 (by norm_num)
  have hcharge : 0 ≤ fill * settings.feeRate := mul_nonneg hfillPos.le hrateNonneg
  have hvalue : 0 ≤ p.quantity * price := mul_nonneg hquantity.le hprice
  have hcost : 0 ≤ p.quantity * price * (settings.slippageBps / 10000 + fill * settings.feeRate) :=
    mul_nonneg hvalue (add_nonneg hpart hcharge)
  have hfree : settings.slippageBps / 10000 + fill * settings.feeRate = 0 ↔
      settings.feeBps = 0 ∧ settings.slippageBps = 0 := by
    rw [add_eq_zero_iff_of_nonneg hpart hcharge, mul_eq_zero_iff_left hfillPos.ne', hrate, div_eq_zero_iff, div_eq_zero_iff]
    have hunit : (10000 : Decimal) ≠ 0 := by norm_num
    simp only [hunit, or_false]
    exact and_comm
  rw [tradeNet, hnet, unrealised, max_sub_eq_iff hcost, mul_eq_zero, mul_eq_zero, hfree]
  have hne : p.quantity ≠ 0 := hquantity.ne'
  simp only [hne, false_or]
  constructor
  · rintro ((hzero | hnone) | hbound)
    · exact Or.inr (Or.inl hzero)
    · exact Or.inl hnone
    · exact Or.inr (Or.inr hbound)
  · rintro (hnone | hzero | hbound)
    · exact Or.inl (Or.inr hnone)
    · exact Or.inl (Or.inl hzero)
    · exact Or.inr hbound

end ExitCosts

section Closing

/-- The figures of a completed run meet: the balance moves by the sum of the trades, the curve ends where they end,
each trade carries the balance on, and the fees are theirs. -/
structure BooksClose (settings : BacktestConfig) (result : BacktestResult) (metrics : BacktestMetrics) : Prop where
  balance : metrics.endingBalance - metrics.startingBalance = metrics.netPnl
  netPnl : metrics.netPnl = (result.trades.map Trade.netPnl).sum
  curve : ∀ point ∈ result.equityCurve.getLast?,
    point.equity = settings.startingBalance + (result.trades.map Trade.netPnl).sum ∧
      ∀ t ∈ result.trades.getLast?, point.equity = t.equityAfter
  carries : Walk Carries (fun t => t.equityAfter = settings.startingBalance + t.netPnl) result.trades
  fees : metrics.totalFees = (result.trades.map Trade.fees).sum

/-- What the bars leave open closes at the last close for what it is marked at there: nothing is open, the exit is
free of fee and slippage or made at no price, or the mark is at minus the margin already. -/
def ClosesAtMark (settings : BacktestConfig) (candles : List Candle) (s : Simulation) : Prop :=
  ∀ p ∈ s.position, ∀ final ∈ candles.getLast?,
    (settings.feeBps = 0 ∧ settings.slippageBps = 0) ∨ final.close = 0 ∨
      grossPnl p final.close - p.entryFee ≤ -p.margin

/-- The reported figures are those of the exact run, each rounded, and the metrics sum the reported ones. -/
structure Reports (reported exact : BacktestResult) (metrics exactMetrics : BacktestMetrics) : Prop where
  trades : reported.trades = exact.trades.map (Trade.rounded quantized)
  curve : reported.equityCurve = exact.equityCurve.map (EquityPoint.rounded quantized)
  startingBalance : metrics.startingBalance = quantized.money exactMetrics.startingBalance
  endingBalance : metrics.endingBalance = quantized.money exactMetrics.endingBalance
  netPnl : metrics.netPnl = (reported.trades.map Trade.netPnl).sum
  totalFees : metrics.totalFees = (reported.trades.map Trade.fees).sum

/-- The metrics of a run that completes. -/
def completedMetrics (q : Rounding) (candles : List Candle) (settings : BacktestConfig) (params : TrendMomentumParams) :
    BacktestMetrics :=
  let looped := loop q candles settings params
  let ended := endOfData q settings candles looped
  computeMetrics q ended.trades ended.curve settings ended.barsInPosition (if looped.position.isSome then 1 else 0)

variable {q : Rounding} {candles : List Candle} {settings : BacktestConfig} {params : TrendMomentumParams}

theorem simulate_metrics (h : warmupBars params + 2 ≤ candles.length) :
    (simulate q candles settings params).metrics = some (completedMetrics q candles settings params) := by
  rw [simulate]
  dsimp only
  rw [if_neg (Nat.not_lt.mpr h)]
  rfl

variable (q settings) in
theorem completedMetrics_sums (h : warmupBars params + 2 ≤ candles.length) :
    (completedMetrics q candles settings params).netPnl =
        q.money ((simulate q candles settings params).trades.map Trade.netPnl).sum ∧
      (completedMetrics q candles settings params).totalFees =
        q.money ((simulate q candles settings params).trades.map Trade.fees).sum ∧
      (completedMetrics q candles settings params).startingBalance = q.money settings.startingBalance := by
  rw [(simulate_of_length _ settings h).1, ← endOfData_trades]
  exact ⟨rfl, rfl, rfl⟩

theorem exists_final (h : warmupBars params + 2 ≤ candles.length) : ∃ final, candles.getLast? = some final := by
  cases candles with
  | nil => exact absurd h (by simp)
  | cons first rest => exact ⟨_, List.getLast?_cons⟩

variable (q settings params) in
/-- The ending balance is the last close marked. -/
theorem completedMetrics_ending {final : Candle} (hfinal : candles.getLast? = some final) :
    (completedMetrics q candles settings params).endingBalance =
      q.money (q.money ((loop q candles settings params).equity +
        unrealised (loop q candles settings params).position final.close)) := by
  obtain ⟨point, hpoint, hequity⟩ := loop_marked q settings params hfinal
  rw [← hequity, completedMetrics, computeMetrics, endOfData_curve, hpoint]
  rfl

/-- What the end of the data adds to the trades. -/
theorem endTrades_sum {final : Candle} (hfinal : candles.getLast? = some final) (s : Simulation) :
    ((endTrades unrounded candles settings s).map Trade.netPnl).sum =
      match s.position with
      | some p => tradeNet settings p (exitFill settings p final.close)
      | none => 0 := by
  rw [endTrades, hfinal]
  cases s.position with
  | none => rfl
  | some p => exact add_zero _

theorem closesAtMark_iff {final : Candle} (hfinal : candles.getLast? = some final) :
    ClosesAtMark settings candles (loop unrounded candles settings params) ↔
      ((endTrades unrounded candles settings (loop unrounded candles settings params)).map Trade.netPnl).sum =
        unrealised (loop unrounded candles settings params).position final.close := by
  have hbooked := booked_loop candles settings params
  have hprice : 0 ≤ final.close := final.low_nonneg.trans final.low_le_close
  rw [endTrades_sum hfinal, ClosesAtMark]
  cases hp : (loop unrounded candles settings params).position with
  | none => exact iff_of_true (fun p hp => absurd hp (Option.not_mem_none p)) rfl
  | some p =>
      dsimp only
      rw [tradeNet_eq_unrealised_iff (hbooked.position p hp) hprice]
      constructor
      · exact fun h => h p rfl final hfinal
      · intro h p' hp' final' hfinal'
        obtain rfl := Option.some.inj hp'
        obtain rfl := Option.some.inj (hfinal.symm.trans hfinal')
        exact h

variable (settings) in
/-- The end of the data leaves the books of all the trades. -/
theorem ended_booked (h : warmupBars params + 2 ≤ candles.length) :
    ∃ s, Booked settings s ∧ s.trades = (simulate unrounded candles settings params).trades := by
  have hbooked := booked_loop candles settings params
  rw [(simulate_of_length _ settings h).1, endTrades]
  split
  · rename_i p last hp hlast
    exact ⟨_, hbooked.close (k := candles.length - 1) p last.close .endOfData last.openTime, rfl⟩
  · exact ⟨_, hbooked, (List.append_nil _).symm⟩

variable (settings) in
/-- The exact books close if and only if the end of the data closes at the mark. -/
theorem booksClose_iff (h : warmupBars params + 2 ≤ candles.length) :
    BooksClose settings (simulate unrounded candles settings params) (completedMetrics unrounded candles settings params) ↔
      ClosesAtMark settings candles (loop unrounded candles settings params) := by
  obtain ⟨final, hfinal⟩ := exists_final h
  obtain ⟨hnet, hfees, hstarting⟩ := completedMetrics_sums unrounded settings h
  have hending := completedMetrics_ending unrounded settings params hfinal
  have hbooked := booked_loop candles settings params
  obtain ⟨ended, hended, htrades⟩ := ended_booked settings h
  have hsum : ((simulate unrounded candles settings params).trades.map Trade.netPnl).sum =
      ((loop unrounded candles settings params).trades.map Trade.netPnl).sum +
        ((endTrades unrounded candles settings (loop unrounded candles settings params)).map Trade.netPnl).sum := by
    rw [(simulate_of_length _ settings h).1, List.map_append, List.sum_append]
  have hbalance := hbooked.equity
  rw [closesAtMark_iff hfinal]
  obtain ⟨point, hpoint, hequity⟩ := loop_marked unrounded settings params hfinal
  rw [unrounded_money] at hnet hfees hstarting hequity
  rw [unrounded_money, unrounded_money] at hending
  constructor
  · intro hclose
    have hcurve := (hclose.curve point (by rw [(simulate_of_length _ settings h).2]; exact hpoint)).1
    rw [hsum] at hcurve
    linarith
  · intro hmark
    have htotal : (loop unrounded candles settings params).equity +
        unrealised (loop unrounded candles settings params).position final.close =
          settings.startingBalance + ((simulate unrounded candles settings params).trades.map Trade.netPnl).sum := by
      rw [hsum, ← hmark, hbalance, add_assoc]
    refine ⟨?_, hnet, fun other hother => ?_, htrades ▸ hended.carries, hfees⟩
    · rw [hending, hstarting, hnet, htotal, add_sub_cancel_left]
    · rw [(simulate_of_length _ settings h).2] at hother
      obtain rfl := Option.some.inj (hpoint.symm.trans hother)
      have hvalue : point.equity =
          settings.startingBalance + ((simulate unrounded candles settings params).trades.map Trade.netPnl).sum :=
        hequity.trans htotal
      refine ⟨hvalue, fun t ht => ?_⟩
      rw [← htrades] at ht
      rw [hvalue, hended.last t ht, hended.equity, htrades]

theorem loop_rounded (q : Rounding) (candles : List Candle) (settings : BacktestConfig) (params : TrendMomentumParams) :
    loop q candles settings params = (loop unrounded candles settings params).rounded q :=
  onBars_rounded q settings 0 (initial settings) _ _ _ _

theorem endTrades_rounded (q : Rounding) (s : Simulation) :
    endTrades q candles settings (s.rounded q) = (endTrades unrounded candles settings s).map (Trade.rounded q) := by
  rw [endTrades, endTrades]
  have hposition : (s.rounded q).position = s.position := rfl
  rw [hposition]
  cases s.position with
  | none => rfl
  | some p =>
      cases candles.getLast? with
      | none => rfl
      | some last => rfl

variable (settings) in
/-- The program reports the exact run, rounded. -/
theorem reports (h : warmupBars params + 2 ≤ candles.length) :
    Reports (runBacktest candles settings params) (simulate unrounded candles settings params)
      (completedMetrics quantized candles settings params) (completedMetrics unrounded candles settings params) := by
  obtain ⟨final, hfinal⟩ := exists_final h
  obtain ⟨hnet, hfees, hstarting⟩ := completedMetrics_sums quantized settings h
  have htrades : (runBacktest candles settings params).trades =
      (simulate unrounded candles settings params).trades.map (Trade.rounded quantized) := by
    rw [runBacktest, (simulate_of_length _ settings h).1, (simulate_of_length _ settings h).1, List.map_append, loop_rounded quantized,
      endTrades_rounded]
    rfl
  have hgrid (f : Trade → Decimal) (hf : ∀ t, f (t.rounded quantized) = quantize 8 (f t)) :
      quantized.money ((runBacktest candles settings params).trades.map f).sum =
        ((runBacktest candles settings params).trades.map f).sum := by
    refine quantize_of_onGrid (onGrid_sum fun t ht => ?_)
    rw [htrades] at ht
    obtain ⟨exact_, -, rfl⟩ := List.mem_map.mp ht
    rw [hf]
    exact quantize_onGrid 8 _
  refine ⟨htrades, ?_, ?_, ?_, hnet.trans (hgrid _ fun _ => rfl), hfees.trans (hgrid _ fun _ => rfl)⟩
  · rw [runBacktest, (simulate_of_length _ settings h).2, (simulate_of_length _ settings h).2, loop_rounded quantized]
    rfl
  · rw [hstarting, (completedMetrics_sums unrounded settings h).2.2]
    rfl
  · rw [completedMetrics_ending quantized settings params hfinal,
      completedMetrics_ending unrounded settings params hfinal, loop_rounded quantized]
    exact quantize_of_onGrid (quantize_onGrid 8 _)

/-- Where the exact books close, the reported balance moves by the reported sum, but for the rounding of each figure. -/
theorem reported_balance {reported exact : BacktestResult} {metrics exactMetrics : BacktestMetrics}
    (hreports : Reports reported exact metrics exactMetrics) (hclose : BooksClose settings exact exactMetrics) :
    |metrics.endingBalance - metrics.startingBalance - metrics.netPnl| ≤
      (reported.trades.length + 2) * (1 / (2 * 10 ^ 8)) := by
  have hending := abs_quantize_sub_le 8 exactMetrics.endingBalance
  have hstarting := abs_quantize_sub_le 8 exactMetrics.startingBalance
  have hnet := abs_sum_sub_le 8 Trade.netPnl exact.trades
  have hsum : metrics.netPnl = (exact.trades.map fun t => quantize 8 t.netPnl).sum := by
    rw [hreports.netPnl, hreports.trades, List.map_map]
    rfl
  have hlength : reported.trades.length = exact.trades.length := by rw [hreports.trades, List.length_map]
  have hbalance := hclose.balance
  rw [hclose.netPnl] at hbalance
  rw [hreports.endingBalance, hreports.startingBalance, hsum, hlength]
  change |quantize 8 exactMetrics.endingBalance - quantize 8 exactMetrics.startingBalance - _| ≤ _
  rw [abs_le] at hending hstarting hnet ⊢
  constructor <;> linarith

/-- A run that completes reports exact books, each figure rounded. They close if and only if the end of the data
closes at the mark, and then the reported balance moves by the reported sum but for the rounding. -/
theorem books_close (candles : List Candle) (settings : BacktestConfig) (params : TrendMomentumParams)
    (h : warmupBars params + 2 ≤ candles.length) :
    ∃ metrics exactMetrics, (runBacktest candles settings params).metrics = some metrics ∧
      (simulate unrounded candles settings params).metrics = some exactMetrics ∧
      Reports (runBacktest candles settings params) (simulate unrounded candles settings params) metrics exactMetrics ∧
      (BooksClose settings (simulate unrounded candles settings params) exactMetrics ↔
        ClosesAtMark settings candles (loop quantized candles settings params)) ∧
      (ClosesAtMark settings candles (loop quantized candles settings params) →
        |metrics.endingBalance - metrics.startingBalance - metrics.netPnl| ≤
          ((runBacktest candles settings params).trades.length + 2) * (1 / (2 * 10 ^ 8))) := by
  have hiff := booksClose_iff settings h
  have hreports := reports settings h
  refine ⟨_, _, simulate_metrics h, simulate_metrics h, hreports, ?_, fun hmark => ?_⟩
  · rw [hiff, loop_rounded quantized]
    rfl
  · rw [loop_rounded quantized] at hmark
    exact reported_balance hreports (hiff.mpr hmark)

theorem books_close_example :
    ∃ metrics exactMetrics, (runBacktest exampleRise exampleConfig exampleParams).metrics = some metrics ∧
      (simulate unrounded exampleRise exampleConfig exampleParams).metrics = some exactMetrics ∧
      Reports (runBacktest exampleRise exampleConfig exampleParams)
        (simulate unrounded exampleRise exampleConfig exampleParams) metrics exactMetrics ∧
      (BooksClose exampleConfig (simulate unrounded exampleRise exampleConfig exampleParams) exactMetrics ↔
        ClosesAtMark exampleConfig exampleRise (loop quantized exampleRise exampleConfig exampleParams)) ∧
      (ClosesAtMark exampleConfig exampleRise (loop quantized exampleRise exampleConfig exampleParams) →
        |metrics.endingBalance - metrics.startingBalance - metrics.netPnl| ≤
          ((runBacktest exampleRise exampleConfig exampleParams).trades.length + 2) * (1 / (2 * 10 ^ 8))) :=
  books_close exampleRise exampleConfig exampleParams (by decide)

/-- A position that the last bar opens is marked at its close without the fee of the exit that is then made there. -/
theorem open_end_parts_books :
    (∀ metrics ∈ (simulate unrounded exampleRise exampleConfig exampleParams).metrics,
      ¬ BooksClose exampleConfig (simulate unrounded exampleRise exampleConfig exampleParams) metrics) ∧
    (runBacktest exampleRise exampleConfig exampleParams).metrics.map
      (fun m => (m.endingBalance - m.startingBalance, m.netPnl)) = some (409090909 / 25000000, -4) := by
  constructor
  · have hexact : (simulate unrounded exampleRise exampleConfig exampleParams).metrics.map
        (fun m => (m.endingBalance - m.startingBalance, m.netPnl)) = some (180 / 11, -4) := by decide +kernel
    intro metrics hmetrics hclose
    rw [hmetrics] at hexact
    obtain ⟨hmoved, hnet⟩ := Prod.mk.inj (Option.some.inj hexact)
    have hbalance := hclose.balance
    rw [hmoved, hnet] at hbalance
    norm_num at hbalance
  · decide +kernel

end Closing

end Aetheris.Backtest
