import Aetheris.BacktestCausality
import Aetheris.Lib.Walk

namespace Aetheris.Backtest

open Lib Money Clock Enums Autonomous Indicators TrendMomentum Relation

section Figures

variable {q : Rounding} {x y : Decimal}

theorem Rounding.zero (q : Rounding) (places : Nat) : q.round places 0 = 0 := by
  have hzero := q.int places 0
  rwa [Int.cast_zero] at hzero

theorem Rounding.money_mono (h : x ≤ y) : q.money x ≤ q.money y := q.mono 8 h

theorem Rounding.money_nonneg (h : 0 ≤ x) : 0 ≤ q.money x := by
  rw [← q.zero 8]
  exact q.mono 8 h

theorem Rounding.percent_nonneg (h : 0 ≤ x) : 0 ≤ q.percent x := by
  rw [← q.zero 4]
  exact q.mono 4 h

theorem Rounding.percent_le_hundred (h : x ≤ 100) : q.percent x ≤ 100 := by
  have hhundred : q.round 4 100 = 100 := by exact_mod_cast q.int 4 100
  rw [← hhundred]
  exact q.mono 4 h

end Figures

section Positions

variable {settings : BacktestConfig} {p : OpenPosition} {equity peak : Decimal}

/-- A position's loss is its margin at most. -/
theorem neg_margin_le_tradeNet (settings : BacktestConfig) (p : OpenPosition) (fill : Decimal) :
    -p.margin ≤ tradeNet settings p fill := le_max_right _ _

theorem neg_margin_le_unrealised (p : OpenPosition) (price : Decimal) : -p.margin ≤ unrealised (some p) price :=
  le_max_right _ _

theorem enter_margin (settings : BacktestConfig) (side : PositionSide) (bar : Candle) (index : Nat) (fill : Decimal)
    (h : 0 < equity) :
    0 < (enter settings side bar index fill equity).margin ∧
      (enter settings side bar index fill equity).margin ≤ equity := by
  have hsize := settings.positionSizePercent_bounds
  have hmargin : (enter settings side bar index fill equity).margin = equity * settings.positionSizePercent / 100 := rfl
  rw [hmargin]
  constructor
  · exact div_pos (mul_pos h hsize.1) (by norm_num)
  · rw [div_le_iff₀ (by norm_num)]
    exact mul_le_mul_of_nonneg_left hsize.2 h.le

/-- Below a peak that is worth something a balance is down by a part of it. -/
theorem drawdown_bounds {marked : Decimal} (hpeak : 0 < peak) (hmarked : 0 ≤ marked) (hle : marked ≤ peak) :
    0 ≤ (peak - marked) / peak * 100 ∧ (peak - marked) / peak * 100 ≤ 100 := by
  have hpart : (peak - marked) / peak ≤ 1 := by
    rw [div_le_one hpeak]
    linarith
  have hnonneg : 0 ≤ (peak - marked) / peak := div_nonneg (by linarith) hpeak.le
  constructor <;> linarith

end Positions

section Account

variable (q : Rounding) (settings : BacktestConfig)

/-- A trade is entered no earlier than the one before it is left, with a margin that the equity left by it covers. -/
def Follows (t u : Trade) : Prop := t.exitTime ≤ u.entryTime ∧ u.margin ≤ t.equityAfter

/-- The account pays for what it posts, and every trade for itself. -/
structure Solvent (s : Simulation) : Prop where
  equity : 0 ≤ s.equity
  peak : 0 < s.peak
  position : ∀ p ∈ s.position, 0 < p.margin ∧ p.margin ≤ s.equity ∧
    ∀ t ∈ s.trades.getLast?, t.exitTime ≤ p.entryTime
  untouched : s.trades = [] → s.equity = settings.startingBalance
  last : ∀ t ∈ s.trades.getLast?, t.equityAfter = q.money s.equity
  trades : ∀ t ∈ s.trades, -t.margin ≤ t.netPnl
  follows : Walk Follows (fun t => t.margin ≤ q.money settings.startingBalance) s.trades
  curve : ∀ point ∈ s.curve, 0 ≤ point.equity ∧ 0 ≤ point.drawdownPercent ∧ point.drawdownPercent ≤ 100

variable {q settings} {s s' : Simulation} {p : OpenPosition} {k : Nat} {bar : Candle}

theorem Solvent.unrealised (h : Solvent q settings s) (price : Decimal) :
    0 ≤ s.equity + unrealised s.position price := by
  cases hp : s.position with
  | none => simpa [Backtest.unrealised] using h.equity
  | some p =>
      have hmargin := (h.position p hp).2.1
      have hmark := neg_margin_le_unrealised p price
      linarith

theorem Solvent.close {open_ : OpenPosition} (h : Solvent q settings s) (hp : s.position = some open_)
    (hmargin : p.margin = open_.margin) (htime : p.entryTime = open_.entryTime) (rawPrice : Decimal) (reason : ExitReason)
    (exitTime : Timestamp) :
    Solvent q settings { closePosition q settings p rawPrice reason exitTime k s with position := none } := by
  obtain ⟨hpos, hle, hafter⟩ := h.position open_ hp
  have hnet := neg_margin_le_tradeNet settings p (exitFill settings p rawPrice)
  have hequity : 0 ≤ s.equity + tradeNet settings p (exitFill settings p rawPrice) := by
    rw [hmargin] at hnet
    linarith
  have hcovered : q.money p.margin ≤ q.money s.equity := Rounding.money_mono (hmargin.le.trans hle)
  refine ⟨hequity, h.peak, fun p hp => absurd hp (Option.not_mem_none p), ?_, ?_, ?_, ?_, h.curve⟩
  · exact fun hnil => absurd hnil (List.append_ne_nil_of_right_ne_nil _ (List.cons_ne_nil _ _))
  · intro t ht
    obtain rfl := Option.some.inj (List.getLast?_concat.symm.trans ht)
    rfl
  · intro t ht
    rcases List.mem_append.mp ht with ht | ht
    · exact h.trades t ht
    · obtain rfl := List.mem_singleton.mp ht
      have hrounded : q.money (-p.margin) ≤ q.money (tradeNet settings p (exitFill settings p rawPrice)) :=
        Rounding.money_mono hnet
      rwa [Rounding.money, q.neg] at hrounded
  · refine h.follows.snoc (fun hnil => ?_) fun t ht => ⟨?_, ?_⟩
    · rw [← h.untouched hnil]
      exact hcovered
    · exact (hafter t ht).trans_eq htime.symm
    · rw [h.last t ht]
      exact hcovered

theorem Solvent.mark (h : Solvent q settings s) (bar : Candle) : Solvent q settings (mark q bar s) := by
  have hmarked := h.unrealised bar.close
  have hpeak : 0 < max s.peak (s.equity + Backtest.unrealised s.position bar.close) := lt_max_of_lt_left h.peak
  obtain ⟨hnonneg, hhundred⟩ := drawdown_bounds hpeak hmarked (le_max_right _ _)
  refine ⟨h.equity, hpeak, h.position, h.untouched, h.last, h.trades, h.follows, fun point hpoint => ?_⟩
  rcases List.mem_append.mp hpoint with hpoint | hpoint
  · exact h.curve point hpoint
  · obtain rfl := List.mem_singleton.mp hpoint
    refine ⟨Rounding.money_nonneg hmarked, Rounding.percent_nonneg (le_max_right _ _), Rounding.percent_le_hundred ?_⟩
    rw [if_pos hpeak]
    exact max_le hhundred (by norm_num)

theorem openTime_le {candles : List Candle} (hascending : candles.Pairwise fun a b => a.openTime < b.openTime)
    {i j : Nat} {a b : Candle} (ha : candles[i]? = some a) (hb : candles[j]? = some b) (hle : i ≤ j) :
    a.openTime ≤ b.openTime := by
  rcases hle.eq_or_lt with rfl | hlt
  · obtain rfl := Option.some.inj (ha.symm.trans hb)
    exact le_rfl
  · obtain ⟨hi, rfl⟩ := List.getElem?_eq_some_iff.mp ha
    obtain ⟨hj, rfl⟩ := List.getElem?_eq_some_iff.mp hb
    exact (List.pairwise_iff_getElem.mp hascending i j hi hj hlt).le

theorem Solvent.move {candles : List Candle} (hascending : candles.Pairwise fun a b => a.openTime < b.openTime)
    {params : TrendMomentumParams} (hbar : candles[k]? = some bar)
    (hmove : Move q settings (warmupBars params) (biasSeries candles params) k bar s s')
    (hsourced : Sourced q candles settings params (k + 1) s) (h : Solvent q settings s) : Solvent q settings s' := by
  cases hmove with
  | flipped p side _ hp _ => exact h.close hp rfl rfl _ _ _
  | entered side _ _ _ hequity _ =>
      obtain ⟨hpos, hle⟩ :=
        enter_margin settings side bar k (applySlippage bar.open_ side true settings.slippageBps) hequity
      refine ⟨h.equity, h.peak, fun p hp => ?_, h.untouched, h.last, h.trades, h.follows, h.curve⟩
      obtain rfl := Option.some.inj hp
      refine ⟨hpos, hle, fun t ht => ?_⟩
      obtain ⟨i, j, entry, exit, hj, hspans⟩ := hsourced.trades t (List.mem_of_getLast? ht)
      rw [hspans.exitTime]
      exact openTime_le hascending hspans.exit_eq hbar (Nat.lt_succ_iff.mp hj)
  | exited p level reason hp _ => exact h.close (p := withRange bar p) hp rfl rfl _ _ _
  | held p hp _ =>
      refine ⟨h.equity, h.peak, fun p' hp' => ?_, h.untouched, h.last, h.trades, h.follows, h.curve⟩
      obtain rfl := Option.some.inj hp'
      exact h.position p hp
  | marked => exact h.mark bar
  | scheduled => exact ⟨h.equity, h.peak, h.position, h.untouched, h.last, h.trades, h.follows, h.curve⟩

theorem solvent_initial (q : Rounding) (settings : BacktestConfig) : Solvent q settings (initial settings) where
  equity := settings.startingBalance_bounds.1.le
  peak := settings.startingBalance_bounds.1
  position p hp := absurd hp (Option.not_mem_none p)
  untouched _ := rfl
  last t ht := absurd ht (Option.not_mem_none t)
  trades _ ht := absurd ht List.not_mem_nil
  follows := Walk.nil
  curve _ hpoint := absurd hpoint List.not_mem_nil

end Account

section Runs

variable {q : Rounding} {candles : List Candle} {settings : BacktestConfig} {params : TrendMomentumParams}

variable (q settings params) in
theorem solvent_stateAfter (hascending : candles.Pairwise fun a b => a.openTime < b.openTime) {n : Nat}
    (hn : n ≤ candles.length) : Solvent q settings (stateAfter q candles settings params n) := by
  have hkept := stateAfter_invariant
    (fun k s => Sourced q candles settings params k s ∧ Solvent q settings s)
    ⟨⟨fun p hp => absurd hp (Option.not_mem_none p), fun _ ht => absurd ht List.not_mem_nil⟩, solvent_initial q settings⟩
    (fun _ _ h => ⟨h.1.next, h.2⟩)
    (fun _ _ _ _ hbar hmove h => ⟨h.1.move hbar hmove, h.2.move hascending hbar hmove h.1⟩) hn
  exact hkept.2

variable (q settings params) in
/-- What the run reports is of an account that is solvent, at the end of the data too. -/
theorem solvent_simulate (hascending : candles.Pairwise fun a b => a.openTime < b.openTime) :
    (∀ t ∈ (simulate q candles settings params).trades, -t.margin ≤ t.netPnl) ∧
      Walk Follows (fun t => t.margin ≤ q.money settings.startingBalance) (simulate q candles settings params).trades ∧
      ∀ point ∈ (simulate q candles settings params).equityCurve,
        0 ≤ point.equity ∧ 0 ≤ point.drawdownPercent ∧ point.drawdownPercent ≤ 100 := by
  by_cases hlength : warmupBars params + 2 ≤ candles.length
  · have hsolvent := solvent_stateAfter q settings params hascending le_rfl
    rw [← loop_eq_stateAfter] at hsolvent
    obtain ⟨htrades, hcurve⟩ := simulate_of_length q settings hlength
    rw [htrades, hcurve]
    have hended : (∀ t ∈ (loop q candles settings params).trades ++
          endTrades q candles settings (loop q candles settings params), -t.margin ≤ t.netPnl) ∧
        Walk Follows (fun t => t.margin ≤ q.money settings.startingBalance)
          ((loop q candles settings params).trades ++ endTrades q candles settings (loop q candles settings params)) := by
      rw [endTrades]
      split
      · rename_i p last hp hlast
        have hclosed := hsolvent.close (k := candles.length - 1) hp rfl rfl last.close .endOfData last.openTime
        exact ⟨hclosed.trades, hclosed.follows⟩
      · rw [List.append_nil]
        exact ⟨hsolvent.trades, hsolvent.follows⟩
    exact ⟨hended.1, hended.2, hsolvent.curve⟩
  · obtain ⟨htrades, hcurve⟩ := simulate_of_short q settings (Nat.lt_of_not_le hlength)
    rw [htrades, hcurve]
    exact ⟨fun t ht => absurd ht List.not_mem_nil, Walk.nil, fun point hpoint => absurd hpoint List.not_mem_nil⟩

/-- At every bar realised and marked equity are not negative and cover the margin of an open position, and the
drawdown is a percentage. No trade loses more than its margin, which the equity left by the one before covers; it is
entered after the warm-up, and no earlier than the one before it is left. -/
theorem account_is_solvent (q : Rounding) (candles : List Candle)
    (hascending : candles.Pairwise fun a b => a.openTime < b.openTime) (settings : BacktestConfig)
    (params : TrendMomentumParams) :
    (∀ n ≤ candles.length, 0 ≤ (stateAfter q candles settings params n).equity ∧
      (∀ price, 0 ≤ (stateAfter q candles settings params n).equity +
        unrealised (stateAfter q candles settings params n).position price) ∧
      ∀ p ∈ (stateAfter q candles settings params n).position,
        0 < p.margin ∧ p.margin ≤ (stateAfter q candles settings params n).equity) ∧
    (∀ point ∈ (simulate q candles settings params).equityCurve,
      0 ≤ point.equity ∧ 0 ≤ point.drawdownPercent ∧ point.drawdownPercent ≤ 100) ∧
    (∀ t ∈ (simulate q candles settings params).trades, -t.margin ≤ t.netPnl ∧ t.entryTime ≤ t.exitTime ∧
      ∃ i j entry exit, warmupBars params + 1 ≤ i ∧ Spans q candles settings params t i j entry exit) ∧
    Walk Follows (fun t => t.margin ≤ q.money settings.startingBalance) (simulate q candles settings params).trades := by
  obtain ⟨hnet, hfollows, hcurve⟩ := solvent_simulate q settings params hascending
  refine ⟨fun n hn => ?_, hcurve, fun t ht => ⟨hnet t ht, ?_⟩, hfollows⟩
  · have hsolvent := solvent_stateAfter q settings params hascending hn
    refine ⟨hsolvent.equity, hsolvent.unrealised, fun p hp => ?_⟩
    exact ⟨(hsolvent.position p hp).1, (hsolvent.position p hp).2.1⟩
  · obtain ⟨i, j, entry, exit, hspans⟩ := spans_simulate t ht
    refine ⟨?_, i, j, entry, exit, ?_, hspans⟩
    · rw [hspans.entryTime, hspans.exitTime]
      exact openTime_le hascending hspans.entry_eq hspans.exit_eq hspans.le
    · obtain ⟨i', rfl, hwarm, -⟩ := hspans.decided
      exact Nat.succ_le_succ hwarm

theorem account_is_solvent_example :
    (∀ n ≤ exampleRise.length, 0 ≤ (stateAfter quantized exampleRise exampleConfig exampleParams n).equity ∧
      (∀ price, 0 ≤ (stateAfter quantized exampleRise exampleConfig exampleParams n).equity +
        unrealised (stateAfter quantized exampleRise exampleConfig exampleParams n).position price) ∧
      ∀ p ∈ (stateAfter quantized exampleRise exampleConfig exampleParams n).position,
        0 < p.margin ∧ p.margin ≤ (stateAfter quantized exampleRise exampleConfig exampleParams n).equity) ∧
    (∀ point ∈ (simulate quantized exampleRise exampleConfig exampleParams).equityCurve,
      0 ≤ point.equity ∧ 0 ≤ point.drawdownPercent ∧ point.drawdownPercent ≤ 100) ∧
    (∀ t ∈ (simulate quantized exampleRise exampleConfig exampleParams).trades,
      -t.margin ≤ t.netPnl ∧ t.entryTime ≤ t.exitTime ∧
      ∃ i j entry exit, warmupBars exampleParams + 1 ≤ i ∧
        Spans quantized exampleRise exampleConfig exampleParams t i j entry exit) ∧
    Walk Follows (fun t => t.margin ≤ quantized.money exampleConfig.startingBalance)
      (simulate quantized exampleRise exampleConfig exampleParams).trades :=
  account_is_solvent quantized exampleRise (by decide) exampleConfig exampleParams

end Runs

end Aetheris.Backtest
