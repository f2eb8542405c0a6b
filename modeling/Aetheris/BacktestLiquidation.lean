import Aetheris.BacktestFills

namespace Aetheris.BacktestLiquidation

open Lib Money Clock Enums Autonomous Indicators TrendMomentum Backtest ExitRules BacktestFills

/-- The price at which the loss of a position reaches its margin. -/
def ruinPrice (entry leverage : Decimal) (long : Bool) : Decimal :=
  if long then entry * (1 - 1 / leverage) else entry * (1 + 1 / leverage)

/-- The adverse extreme of the bar alone loses the margin. -/
def LosesMargin (bar : Candle) (p : OpenPosition) : Prop :=
  p.margin ≤ p.quantity * if isLong p then p.entryPrice - bar.low else bar.high - p.entryPrice

/-- What a position takes from its entry and keeps. -/
structure Opened (settings : BacktestConfig) (p : OpenPosition) : Prop where
  entryPrice : 0 < p.entryPrice
  margin : 0 < p.margin
  quantity : p.quantity = p.margin * settings.leverage / p.entryPrice
  liquidationPrice : p.liquidationPrice =
    if 1 < settings.leverage then some (ruinPrice p.entryPrice settings.leverage (isLong p)) else none

section Entries

variable {settings : BacktestConfig} {p : OpenPosition} {bar : Candle} {entry : Decimal}

theorem enter_liquidationPrice (settings : BacktestConfig) (side : PositionSide) (bar : Candle) (index : Nat)
    (entry equity : Decimal) :
    (enter settings side bar index entry equity).liquidationPrice =
      if 1 < settings.leverage then some (ruinPrice entry settings.leverage (decide (side = .long))) else none :=
  rfl

theorem leverage_pos (settings : BacktestConfig) : 0 < settings.leverage :=
  lt_of_lt_of_le one_pos settings.leverage_bounds.1

/-- The engine's level is the price of ruin, where that is a price. -/
theorem liquidationPrice_eq (entry leverage : Decimal) (long : Bool) :
    PaperPricing.liquidationPrice entry leverage long =
      if 0 < ruinPrice entry leverage long then some (ruinPrice entry leverage long) else none := by
  have hlevel : (if long = true then entry - entry / leverage else entry + entry / leverage) =
      ruinPrice entry leverage long := by
    rw [ruinPrice]
    cases long with
    | true => rw [if_pos rfl, if_pos rfl, mul_sub, mul_one, mul_one_div]
    | false => rw [if_neg Bool.false_ne_true, if_neg Bool.false_ne_true, mul_add, mul_one, mul_one_div]
  rw [PaperPricing.liquidationPrice, hlevel]

theorem ruinPrice_pos (hentry : 0 < entry) {leverage : Decimal} (hleverage : 1 < leverage) (long : Bool) :
    0 < ruinPrice entry leverage long := by
  have hshare : 1 / leverage < 1 := (div_lt_one (zero_lt_one.trans hleverage)).mpr hleverage
  have hshare_pos : 0 < 1 / leverage := one_div_pos.mpr (zero_lt_one.trans hleverage)
  rw [ruinPrice]
  split
  · exact mul_pos hentry (sub_pos.mpr hshare)
  · exact mul_pos hentry (add_pos one_pos hshare_pos)

/-- The two levels are one, but for a short at one times, which the backtest never liquidates. -/
theorem liquidationPrice_agrees_iff (settings : BacktestConfig) (side : PositionSide) (bar : Candle) (index : Nat)
    (equity : Decimal) (hentry : 0 < entry) :
    (enter settings side bar index entry equity).liquidationPrice =
        PaperPricing.liquidationPrice entry settings.leverage (decide (side = .long)) ↔
      side = .long ∨ 1 < settings.leverage := by
  rw [enter_liquidationPrice, liquidationPrice_eq]
  by_cases hleverage : 1 < settings.leverage
  · rw [if_pos hleverage, if_pos (ruinPrice_pos hentry hleverage _)]
    exact ⟨fun _ => .inr hleverage, fun _ => rfl⟩
  · have hone : settings.leverage = 1 := le_antisymm (not_lt.mp hleverage) settings.leverage_bounds.1
    rw [if_neg hleverage, hone, ruinPrice]
    by_cases hside : side = .long
    · simp [hside]
    · have hshort : 0 < entry * (1 + 1 / 1) := by positivity
      simp [hside, hentry]

theorem opened_enter {side : PositionSide} {index : Nat} {equity : Decimal} (hequity : 0 < equity)
    (hentry : 0 < entry) : Opened settings (enter settings side bar index entry equity) where
  entryPrice := hentry
  margin := div_pos (mul_pos hequity settings.positionSizePercent_bounds.1) (by norm_num)
  quantity := rfl
  liquidationPrice := rfl

/-- The adverse extreme loses the margin exactly where the bar reaches the price of ruin. -/
theorem losesMargin_iff (h : Opened settings p) (bar : Candle) :
    LosesMargin bar p ↔ barReaches (isLong p) bar.high bar.low (ruinPrice p.entryPrice settings.leverage (isLong p)) := by
  have hleverage := leverage_pos settings
  have hentry := h.entryPrice
  have hmove (move : Decimal) : p.margin ≤ p.quantity * move ↔ p.entryPrice / settings.leverage ≤ move := by
    rw [h.quantity, div_le_iff₀ hleverage, div_mul_eq_mul_div, le_div_iff₀ hentry, mul_assoc,
      mul_le_mul_iff_right₀ h.margin, mul_comm settings.leverage move]
  rw [LosesMargin, hmove, barReaches, ruinPrice]
  cases isLong p with
  | true =>
      simp only [if_true, decide_eq_true_eq, mul_sub, mul_one, mul_one_div]
      exact le_sub_comm
  | false =>
      simp only [Bool.false_eq_true, if_false, decide_eq_true_eq, mul_add, mul_one, mul_one_div]
      exact le_sub_iff_add_le'

end Entries

section Runs

variable {q : Rounding} {settings : BacktestConfig} {warmup last index : Nat} {biases : List (Option StrategyBias)}
  {bar : Candle} {s : Simulation} {p : OpenPosition}

/-- A bar takes a position out where it reaches an adverse level or the target. -/
theorem triggered_isSome_iff (settings : BacktestConfig) (bar : Candle) (p : OpenPosition) :
    (triggered settings bar (withRange bar p)).isSome ↔
      (∃ x ∈ adverseLevels settings p, barReaches (isLong p) bar.high bar.low x.1) ∨
        ∃ price ∈ p.targetPrice, barReaches (!isLong p) bar.high bar.low price := by
  have htarget : ((p.targetPrice.filter fun price => barReaches (!isLong p) bar.high bar.low price).map
      fun price => (price, ExitReason.takeProfit)).isSome ↔
      ∃ price ∈ p.targetPrice, barReaches (!isLong p) bar.high bar.low price := by
    rw [Option.isSome_map, Option.isSome_iff_exists]
    exact exists_congr fun price => Option.mem_filter_iff
  have hadverse : ((firstLevel (isLong p) (adverseLevels settings p)).filter
      fun x => barReaches (isLong p) bar.high bar.low x.1).isSome ↔
      ∃ x ∈ adverseLevels settings p, barReaches (isLong p) bar.high bar.low x.1 := by
    constructor
    · intro h
      obtain ⟨x, hx⟩ := Option.isSome_iff_exists.mp h
      obtain ⟨hfirst, hreached⟩ := Option.mem_filter_iff.mp hx
      exact ⟨x, mem_of_firstLevel hfirst, hreached⟩
    · rintro ⟨x, hx, hreached⟩
      cases hfirst : firstLevel (isLong p) (adverseLevels settings p) with
      | none => exact absurd (firstLevel_eq_none.mp hfirst ▸ hx) List.not_mem_nil
      | some y =>
          have hy : barReaches (isLong p) bar.high bar.low y.1 := by
            rcases closer_trichotomy (isLong p) y.1 x.1 with hcloser | heq | hcloser
            · exact barReaches_of_closer hcloser hreached
            · exact heq ▸ hreached
            · exact absurd hcloser (not_closer_firstLevel hfirst x hx)
          rw [Option.filter_some, if_pos hy]
          rfl
  rw [triggered_eq, Option.isSome_or, Bool.or_eq_true, hadverse, htarget]

theorem opened_execute (h : ∀ p ∈ s.position, Opened settings p) :
    ∀ p ∈ (execute q settings index bar s).position, Opened settings p := by
  have henter (pending : PositionSide) (s : Simulation) (h : ∀ p ∈ s.position, Opened settings p) :
      ∀ p ∈ (enterPending settings index bar pending s).position, Opened settings p := by
    rw [enterPending]
    split
    · rename_i hfree
      dsimp only
      split
      · rename_i hfill
        rintro _ ⟨⟩
        exact opened_enter hfree.2.2 hfill
      · exact h
    · exact h
  rw [execute]
  cases s.pendingSide with
  | none => exact h
  | some pending =>
      refine henter pending _ ?_
      rw [exitFlipped]
      cases hp : s.position with
      | none =>
          rw [hp] at h
          intro p hmem
          exact h p (hp ▸ hmem)
      | some p =>
          dsimp only
          split
          · exact fun p hmem => absurd hmem (Option.not_mem_none p)
          · exact h

theorem opened_onBar (h : ∀ p ∈ s.position, Opened settings p) :
    ∀ p ∈ (onBar q settings warmup biases last index bar s).position, Opened settings p := by
  have hposition : (onBar q settings warmup biases last index bar s).position =
      (manage q settings index bar (execute q settings index bar s)).position := by
    rw [onBar, decideNext]
    split
    · dsimp only
      split <;> rfl
    · rfl
  have hexecuted : ∀ p ∈ (execute q settings index bar s).position, Opened settings p := opened_execute h
  rw [hposition, manage]
  cases hp : (execute q settings index bar s).position with
  | none =>
      intro p hmem
      exact absurd (hp ▸ hmem) (Option.not_mem_none p)
  | some p =>
      dsimp only
      split
      · exact fun p hmem => absurd hmem (Option.not_mem_none p)
      · rintro _ ⟨⟩
        have hopened := hexecuted p hp
        exact ⟨hopened.entryPrice, hopened.margin, hopened.quantity, hopened.liquidationPrice⟩

theorem managed_opened (bars : List Candle) (h : ∀ p ∈ s.position, Opened settings p) :
    ∀ x ∈ managed q settings warmup biases last index bars s, Opened settings x.2 := by
  induction bars generalizing index s with
  | nil => exact fun _ hx => absurd hx List.not_mem_nil
  | cons bar rest ih =>
      intro x hx
      rw [managed] at hx
      rcases List.mem_append.mp hx with hx | hx
      · obtain ⟨p, hp, rfl⟩ := Option.mem_map.mp (Option.mem_toList.mp hx)
        exact opened_execute h p hp
      · exact ih (opened_onBar h) x hx

theorem runManaged_opened (q : Rounding) (candles : List Candle) (settings : BacktestConfig)
    (params : TrendMomentumParams) : ∀ x ∈ runManaged q settings candles params, Opened settings x.2 := by
  rw [runManaged]
  split
  · exact fun _ hx => absurd hx List.not_mem_nil
  · exact managed_opened candles fun p hp => absurd hp (Option.not_mem_none p)

end Runs

/-- At one times: the low of a long's bar is zero, the high of a short's at least twice its entry. -/
def Ruinous (bar : Candle) (p : OpenPosition) : Prop := if isLong p then bar.low = 0 else 2 * p.entryPrice ≤ bar.high

/-- The liquidation prices of the two engines are one; and no position of the
run survives a bar whose adverse extreme alone loses its margin. -/
structure LiquidationAgrees (q : Rounding) (candles : List Candle) (settings : BacktestConfig)
    (params : TrendMomentumParams) (side : PositionSide) (entry : Decimal) : Prop where
  level : ∀ bar index equity, (enter settings side bar index entry equity).liquidationPrice =
    PaperPricing.liquidationPrice entry settings.leverage (decide (side = .long))
  closes : ∀ x ∈ runManaged q settings candles params, LosesMargin x.1 x.2 →
    (triggered settings x.1 (withRange x.1 x.2)).isSome

section Margins

variable {settings : BacktestConfig} {bar : Candle} {p : OpenPosition}

theorem losesMargin_at_one (h : Opened settings p) (hone : settings.leverage = 1) (bar : Candle) :
    LosesMargin bar p ↔ Ruinous bar p := by
  rw [losesMargin_iff h, hone, Ruinous, barReaches, ruinPrice]
  cases isLong p with
  | true =>
      simp only [if_true, decide_eq_true_eq, div_one, sub_self, mul_zero]
      exact ⟨fun hlow => le_antisymm hlow bar.low_nonneg, fun hlow => hlow.le⟩
  | false =>
      simp only [Bool.false_eq_true, if_false, decide_eq_true_eq, div_one]
      rw [mul_comm 2 p.entryPrice, one_add_one_eq_two]

/-- Above one times the liquidation level is itself a level that the bar reaches. -/
theorem closes_above_one (h : Opened settings p) (hleverage : 1 < settings.leverage) (hloses : LosesMargin bar p) :
    (triggered settings bar (withRange bar p)).isSome := by
  refine (triggered_isSome_iff settings bar p).mpr (.inl ⟨(_, .liquidation), ?_, (losesMargin_iff h bar).mp hloses⟩)
  refine List.mem_append_left _ (List.mem_append_right _ (Option.mem_toList.mpr ?_))
  rw [h.liquidationPrice, if_pos hleverage]
  rfl

end Margins

theorem one_bounds : (1 : Decimal) ≤ 1 ∧ (1 : Decimal) ≤ 25 := by norm_num

def unleveredConfig : BacktestConfig :=
  { exampleConfig with
    leverage := 1
    leverage_bounds := one_bounds }

end Aetheris.BacktestLiquidation
