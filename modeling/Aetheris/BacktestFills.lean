import Aetheris.BacktestCausality
import Aetheris.ExitRules

namespace Aetheris.BacktestFills

open Lib Money Clock Enums Autonomous Indicators TrendMomentum Backtest ExitRules

/-- An exit as it is made: the bar, the position, the price before slippage. -/
structure Exit where
  bar : Candle
  index : Nat
  position : OpenPosition
  rawPrice : Decimal
  reason : ExitReason

section Runs

variable (q : Rounding) (settings : BacktestConfig) (warmup : Nat) (biases : List (Option StrategyBias)) (last : Nat)

def flipExits (index : Nat) (bar : Candle) (s : Simulation) : List Exit :=
  match s.pendingSide, s.position with
  | some pending, some p => if p.side ≠ pending then [⟨bar, index, p, bar.open_, .signalFlip⟩] else []
  | _, _ => []

def rangeExits (index : Nat) (bar : Candle) (s : Simulation) : List Exit :=
  match s.position with
  | some p => ((triggered settings bar (withRange bar p)).map fun x =>
      (⟨bar, index, withRange bar p, x.1, x.2⟩ : Exit)).toList
  | none => []

def barExits (index : Nat) (bar : Candle) (s : Simulation) : List Exit :=
  flipExits index bar s ++ rangeExits settings index bar (execute q settings index bar s)

/-- The exits of the loop, bar by bar. -/
def exitsOf : Nat → List Candle → Simulation → List Exit
  | _, [], _ => []
  | index, bar :: rest, s =>
      barExits q settings index bar s ++ exitsOf (index + 1) rest (onBar q settings warmup biases last index bar s)

/-- The positions that the bars of the loop manage, each with its bar. -/
def managed : Nat → List Candle → Simulation → List (Candle × OpenPosition)
  | _, [], _ => []
  | index, bar :: rest, s =>
      ((execute q settings index bar s).position.map fun p => (bar, p)).toList ++
        managed (index + 1) rest (onBar q settings warmup biases last index bar s)

def endExits (candles : List Candle) (s : Simulation) : List Exit :=
  match s.position, candles.getLast? with
  | some p, some last => [⟨last, candles.length - 1, p, last.close, .endOfData⟩]
  | _, _ => []

variable (candles : List Candle) (params : TrendMomentumParams)

/-- Every exit of a run, those of the loop and the one at the end of the data. -/
def runExits : List Exit :=
  if candles.length < warmupBars params + 2 then []
  else exitsOf q settings (warmupBars params) (biasSeries candles params) (candles.length - 1) 0 candles
      (initial settings) ++ endExits candles (loop q candles settings params)

def runManaged : List (Candle × OpenPosition) :=
  if candles.length < warmupBars params + 2 then []
  else managed q settings (warmupBars params) (biasSeries candles params) (candles.length - 1) 0 candles
    (initial settings)

end Runs

/-- The trade that records an exit, which shows the price after slippage. -/
def Made (q : Rounding) (settings : BacktestConfig) (t : Trade) (e : Exit) : Prop :=
  ∃ equity, t = tradeOf q settings e.position e.rawPrice e.reason e.bar.openTime e.index equity

def isLong (p : OpenPosition) : Bool := p.side = .long

/-- The adverse level that an exit names. -/
def firedLevel (settings : BacktestConfig) (e : Exit) : Option Decimal :=
  match e.reason with
  | .stopLoss => e.position.stopPrice
  | .liquidation => e.position.liquidationPrice
  | .trailingStop => trailLevel settings e.position
  | _ => none

/-- A price that the bar traded; and, where the bar opened beyond the level
that fired, one that is no better for the trader than the open. -/
structure Sound (settings : BacktestConfig) (e : Exit) : Prop where
  traded : e.bar.low ≤ e.rawPrice ∧ e.rawPrice ≤ e.bar.high
  gap : ∀ level ∈ firedLevel settings e, Closer (isLong e.position) level e.bar.open_ →
    ¬ Closer (isLong e.position) e.rawPrice e.bar.open_

/-- The adverse levels of a position on a bar. -/
def adverseLevels (settings : BacktestConfig) (p : OpenPosition) : List (Decimal × ExitReason) :=
  adverseOf p.stopPrice p.liquidationPrice (trailLevel settings p)

/-- The bar opens beyond no adverse level, and it lies wholly beyond the target
only where it reaches an adverse level. -/
structure Within (settings : BacktestConfig) (bar : Candle) (p : OpenPosition) : Prop where
  adverse : ∀ x ∈ adverseLevels settings p, ¬ Closer (isLong p) x.1 bar.open_
  target : ∀ price ∈ p.targetPrice, barReaches (isLong p) bar.high bar.low price ∨
    ∃ x ∈ adverseLevels settings p, barReaches (isLong p) bar.high bar.low x.1

section Bars

variable {settings : BacktestConfig} {bar : Candle} {p : OpenPosition} {index : Nat} {x : Decimal × ExitReason}

theorem traded_iff (long : Bool) (bar : Candle) (price : Decimal) :
    bar.low ≤ price ∧ price ≤ bar.high ↔
      barReaches long bar.high bar.low price ∧ barReaches (!long) bar.high bar.low price := by
  cases long with
  | true => simp [barReaches]
  | false => simp [barReaches, and_comm]

/-- A level that the bar does not open beyond does not lie beyond the bar on
the other side. -/
theorem reaches_of_not_closer {long : Bool} {price : Decimal} (h : ¬ Closer long price bar.open_) :
    barReaches (!long) bar.high bar.low price := by
  cases long with
  | true => exact decide_eq_true ((not_lt.mp h).trans bar.open_le_high)
  | false => exact decide_eq_true (bar.low_le_open.trans (not_lt.mp h))

theorem not_closer_of_not_reaches {long : Bool} {price : Decimal}
    (h : ¬ barReaches long bar.high bar.low price = true) : ¬ Closer long price bar.open_ := by
  cases long with
  | true =>
      have hbelow : price < bar.low := not_le.mp fun hle => h (decide_eq_true hle)
      exact not_lt.mpr (hbelow.le.trans bar.low_le_open)
  | false =>
      have habove : bar.high < price := not_le.mp fun hle => h (decide_eq_true hle)
      exact not_lt.mpr (bar.open_le_high.trans habove.le)

theorem firedLevel_of_mem (hx : x ∈ adverseLevels settings p) :
    firedLevel settings ⟨bar, index, withRange bar p, x.1, x.2⟩ = some x.1 := by
  rcases List.mem_append.mp hx with hx | hx
  · rcases List.mem_append.mp hx with hx | hx
    · obtain ⟨level, hlevel, rfl⟩ := Option.map_eq_some_iff.mp (Option.mem_toList.mp hx)
      exact hlevel
    · obtain ⟨level, hlevel, rfl⟩ := Option.map_eq_some_iff.mp (Option.mem_toList.mp hx)
      exact hlevel
  · obtain ⟨level, hlevel, rfl⟩ := Option.map_eq_some_iff.mp (Option.mem_toList.mp hx)
    exact hlevel

/-- A fill at an adverse level that the bar reaches. -/
theorem sound_adverse_iff (hx : x ∈ adverseLevels settings p)
    (hreached : barReaches (isLong p) bar.high bar.low x.1) :
    Sound settings ⟨bar, index, withRange bar p, x.1, x.2⟩ ↔ ¬ Closer (isLong p) x.1 bar.open_ := by
  constructor
  · intro h hcloser
    exact h.gap x.1 (firedLevel_of_mem hx) hcloser hcloser
  · intro h
    exact ⟨(traded_iff (isLong p) bar x.1).mpr ⟨hreached, reaches_of_not_closer h⟩, fun _ _ _ => h⟩

/-- A fill at the target that the bar reaches. -/
theorem sound_target_iff {price : Decimal} (hreached : barReaches (!isLong p) bar.high bar.low price) :
    Sound settings ⟨bar, index, withRange bar p, price, .takeProfit⟩ ↔ barReaches (isLong p) bar.high bar.low price := by
  constructor
  · intro h
    exact ((traded_iff (isLong p) bar price).mp h.traded).1
  · intro h
    exact ⟨(traded_iff (isLong p) bar price).mpr ⟨h, hreached⟩, fun _ hlevel => nomatch hlevel⟩

theorem triggered_eq (settings : BacktestConfig) (bar : Candle) (p : OpenPosition) :
    triggered settings bar (withRange bar p) =
      ((firstLevel (isLong p) (adverseLevels settings p)).filter fun x => barReaches (isLong p) bar.high bar.low x.1).or
        ((p.targetPrice.filter fun price => barReaches (!isLong p) bar.high bar.low price).map
          fun price => (price, ExitReason.takeProfit)) :=
  resolveIntrabarExit_eq

theorem mem_of_firstLevel {long : Bool} {l : List (Decimal × ExitReason)} (h : firstLevel long l = some x) : x ∈ l := by
  cases long with
  | true => exact maxLevel_mem _ h
  | false => exact minLevel_mem _ h

/-- No adverse level is nearer than the one that is compared. -/
theorem not_closer_firstLevel {long : Bool} {l : List (Decimal × ExitReason)} (h : firstLevel long l = some x) :
    ∀ y ∈ l, ¬ Closer long y.1 x.1 :=
  fun _ hy => ((firstLevel_picks h).2 _ (List.mem_map_of_mem hy)).not_closer

theorem not_closer_trans {long : Bool} {a b c : Decimal} (hab : ¬ Closer long a b) (hbc : ¬ Closer long b c) :
    ¬ Closer long a c := by
  intro hac
  rcases closer_trichotomy long b a with hba | heq | hba
  · exact hbc (hba.trans hac)
  · exact hbc (heq ▸ hac)
  · exact hab hba

theorem reaches_or (long : Bool) (bar : Candle) (price : Decimal) :
    barReaches long bar.high bar.low price ∨ barReaches (!long) bar.high bar.low price := by
  have hrange : bar.low ≤ bar.high := bar.low_le_open.trans bar.open_le_high
  rcases le_total bar.low price with hlow | hlow
  · cases long with
    | true => exact .inl (decide_eq_true hlow)
    | false => exact .inr (decide_eq_true hlow)
  · cases long with
    | true => exact .inr (decide_eq_true (hlow.trans hrange))
    | false => exact .inl (decide_eq_true (hlow.trans hrange))

theorem sound_targets_iff :
    (∀ x ∈ (p.targetPrice.filter fun price => barReaches (!isLong p) bar.high bar.low price).map
        fun price => (price, ExitReason.takeProfit), Sound settings ⟨bar, index, withRange bar p, x.1, x.2⟩) ↔
      ∀ price ∈ p.targetPrice, barReaches (isLong p) bar.high bar.low price := by
  constructor
  · intro h price hprice
    rcases reaches_or (isLong p) bar price with hreached | hreached
    · exact hreached
    · exact (sound_target_iff hreached).mp
        (h (price, .takeProfit) (Option.mem_map.mpr ⟨price, Option.mem_filter_iff.mpr ⟨hprice, hreached⟩, rfl⟩))
  · intro h x hx
    obtain ⟨price, hprice, rfl⟩ := Option.mem_map.mp hx
    obtain ⟨htarget, hreached⟩ := Option.mem_filter_iff.mp hprice
    exact (sound_target_iff hreached).mpr (h price htarget)

/-- Where the bar reaches no adverse level, only the target counts. -/
theorem within_iff_of_unreached (h : ∀ x ∈ adverseLevels settings p, ¬ barReaches (isLong p) bar.high bar.low x.1 = true) :
    Within settings bar p ↔ ∀ price ∈ p.targetPrice, barReaches (isLong p) bar.high bar.low price := by
  constructor
  · intro hwithin price hprice
    rcases hwithin.target price hprice with hreached | ⟨x, hx, hreached⟩
    · exact hreached
    · exact absurd hreached (h x hx)
  · intro htarget
    exact ⟨fun x hx => not_closer_of_not_reaches (h x hx), fun price hprice => .inl (htarget price hprice)⟩

/-- What a bar does to a position is sound exactly where the bar is within the levels. -/
theorem sound_triggered_iff (settings : BacktestConfig) (bar : Candle) (p : OpenPosition) (index : Nat) :
    (∀ x ∈ triggered settings bar (withRange bar p), Sound settings ⟨bar, index, withRange bar p, x.1, x.2⟩) ↔
      Within settings bar p := by
  rw [triggered_eq]
  cases hfirst : firstLevel (isLong p) (adverseLevels settings p) with
  | none =>
      have hnil := firstLevel_eq_none.mp hfirst
      rw [within_iff_of_unreached fun x hx => absurd (hnil ▸ hx) List.not_mem_nil]
      exact sound_targets_iff
  | some x =>
      have hx := mem_of_firstLevel hfirst
      have hnearest := not_closer_firstLevel hfirst
      by_cases hreached : barReaches (isLong p) bar.high bar.low x.1 = true
      · rw [Option.filter_some, if_pos hreached, Option.some_or]
        constructor
        · intro h
          have hopen := (sound_adverse_iff hx hreached).mp (h x rfl)
          exact ⟨fun y hy => not_closer_trans (hnearest y hy) hopen, fun _ _ => .inr ⟨x, hx, hreached⟩⟩
        · rintro h _ ⟨⟩
          exact (sound_adverse_iff hx hreached).mpr (h.adverse x hx)
      · have hunreached (y) (hy : y ∈ adverseLevels settings p) :
            ¬ barReaches (isLong p) bar.high bar.low y.1 = true := by
          intro hy'
          rcases closer_trichotomy (isLong p) x.1 y.1 with hcloser | heq | hcloser
          · exact hreached (barReaches_of_closer hcloser hy')
          · exact hreached (heq ▸ hy')
          · exact hnearest y hy hcloser
        rw [Option.filter_some, if_neg hreached, Option.none_or, within_iff_of_unreached hunreached]
        exact sound_targets_iff

end Bars

section Loop

variable (q : Rounding) (settings : BacktestConfig) (warmup : Nat) (biases : List (Option StrategyBias)) (last : Nat)

theorem flip_sound {index : Nat} {bar : Candle} {s : Simulation} : ∀ e ∈ flipExits index bar s, Sound settings e := by
  intro e he
  rw [flipExits] at he
  split at he
  · split at he
    · obtain rfl := List.mem_singleton.mp he
      exact ⟨⟨bar.low_le_open, bar.open_le_high⟩, fun _ hlevel => nomatch hlevel⟩
    · exact absurd he List.not_mem_nil
  · exact absurd he List.not_mem_nil

theorem end_sound {candles : List Candle} {s : Simulation} : ∀ e ∈ endExits candles s, Sound settings e := by
  intro e he
  rw [endExits] at he
  split at he
  · rename_i p bar _ _
    obtain rfl := List.mem_singleton.mp he
    exact ⟨⟨bar.low_le_close, bar.close_le_high⟩, fun _ hlevel => nomatch hlevel⟩
  · exact absurd he List.not_mem_nil

theorem range_sound_iff (index : Nat) (bar : Candle) (s : Simulation) :
    (∀ e ∈ rangeExits settings index bar s, Sound settings e) ↔ ∀ p ∈ s.position, Within settings bar p := by
  rw [rangeExits]
  cases s.position with
  | none => simp
  | some p =>
      have hexits := sound_triggered_iff settings bar p index
      simp only [Option.mem_toList, Option.mem_some_iff, forall_eq']
      constructor
      · intro h
        exact hexits.mp fun x hx => h _ (Option.mem_map_of_mem _ hx)
      · intro h e he
        obtain ⟨x, hx, rfl⟩ := Option.mem_map.mp he
        exact hexits.mpr h x hx

theorem bar_sound_iff (index : Nat) (bar : Candle) (s : Simulation) :
    (∀ e ∈ barExits q settings index bar s, Sound settings e) ↔
      ∀ p ∈ (execute q settings index bar s).position, Within settings bar p := by
  rw [barExits, ← range_sound_iff settings index]
  constructor
  · exact fun h e he => h e (List.mem_append_right _ he)
  · intro h e he
    rcases List.mem_append.mp he with he | he
    · exact flip_sound settings e he
    · exact h e he

/-- The exits of a loop are sound exactly where its bars are within the levels of what they manage. -/
theorem exits_sound_iff (bars : List Candle) (index : Nat) (s : Simulation) :
    (∀ e ∈ exitsOf q settings warmup biases last index bars s, Sound settings e) ↔
      ∀ x ∈ managed q settings warmup biases last index bars s, Within settings x.1 x.2 := by
  induction bars generalizing index s with
  | nil => exact ⟨fun _ _ h => absurd h List.not_mem_nil, fun _ _ h => absurd h List.not_mem_nil⟩
  | cons bar rest ih =>
      have hbar := bar_sound_iff q settings index bar s
      have hrest := ih (index + 1) (onBar q settings warmup biases last index bar s)
      rw [exitsOf, managed, List.forall_mem_append, List.forall_mem_append, hbar, hrest]
      refine and_congr_left fun _ => ?_
      cases (execute q settings index bar s).position with
      | none => simp
      | some p => simp

/-! ### The exits are those of the trades -/

theorem execute_made (index : Nat) (bar : Candle) (s : Simulation) :
    ∃ new, (execute q settings index bar s).trades = s.trades ++ new ∧
      List.Forall₂ (Made q settings) new (flipExits index bar s) := by
  have henter (pending : PositionSide) (s : Simulation) : (enterPending settings index bar pending s).trades = s.trades := by
    rw [enterPending]
    split
    · dsimp only
      split <;> rfl
    · rfl
  rw [execute, flipExits]
  cases s.pendingSide with
  | none => exact ⟨[], (List.append_nil _).symm, .nil⟩
  | some pending =>
      dsimp only
      rw [henter, exitFlipped]
      cases s.position with
      | none => exact ⟨[], (List.append_nil _).symm, .nil⟩
      | some p =>
          dsimp only
          split
          · exact ⟨_, rfl, .cons ⟨_, rfl⟩ .nil⟩
          · exact ⟨[], (List.append_nil _).symm, .nil⟩

theorem manage_made (index : Nat) (bar : Candle) (s : Simulation) :
    ∃ new, (manage q settings index bar s).trades = s.trades ++ new ∧
      List.Forall₂ (Made q settings) new (rangeExits settings index bar s) := by
  rw [manage, rangeExits]
  cases s.position with
  | none => exact ⟨[], (List.append_nil _).symm, .nil⟩
  | some p =>
      dsimp only
      cases triggered settings bar (withRange bar p) with
      | none => exact ⟨[], (List.append_nil _).symm, .nil⟩
      | some x => exact ⟨_, rfl, .cons ⟨_, rfl⟩ .nil⟩

theorem decideNext_trades (index : Nat) (s : Simulation) :
    (decideNext settings warmup biases last index s).trades = s.trades := by
  rw [decideNext]
  split
  · dsimp only
    split <;> rfl
  · rfl

theorem loop_made (bars : List Candle) (index : Nat) (s : Simulation) :
    ∃ new, (onBars q settings warmup biases last index bars s).trades = s.trades ++ new ∧
      List.Forall₂ (Made q settings) new (exitsOf q settings warmup biases last index bars s) := by
  induction bars generalizing index s with
  | nil => exact ⟨[], (List.append_nil _).symm, .nil⟩
  | cons bar rest ih =>
      obtain ⟨flipped, hflipped, hmadeFlip⟩ := execute_made q settings index bar s
      obtain ⟨closed, hclosed, hmadeRange⟩ := manage_made q settings index bar (execute q settings index bar s)
      obtain ⟨later, hlater, hmadeLater⟩ := ih (index + 1) (onBar q settings warmup biases last index bar s)
      have hbar : (onBar q settings warmup biases last index bar s).trades = s.trades ++ (flipped ++ closed) := by
        rw [onBar, decideNext_trades]
        change (manage q settings index bar (execute q settings index bar s)).trades = _
        rw [hclosed, hflipped, List.append_assoc]
      refine ⟨flipped ++ closed ++ later, ?_, ?_⟩
      · rw [onBars, hlater, hbar, List.append_assoc]
      · rw [exitsOf, barExits]
        exact List.rel_append (List.rel_append hmadeFlip hmadeRange) hmadeLater

theorem end_made (candles : List Candle) (s : Simulation) :
    List.Forall₂ (Made q settings) (endTrades q candles settings s) (endExits candles s) := by
  rw [endTrades, endExits]
  cases s.position with
  | none => exact .nil
  | some p =>
      cases candles.getLast? with
      | none => exact .nil
      | some bar => exact .cons ⟨_, rfl⟩ .nil

end Loop

/-- The trades of a run are its exits, and every one is sound. -/
structure FillsTraded (q : Rounding) (candles : List Candle) (settings : BacktestConfig)
    (params : TrendMomentumParams) : Prop where
  made : List.Forall₂ (Made q settings) (simulate q candles settings params).trades (runExits q settings candles params)
  sound : ∀ e ∈ runExits q settings candles params, Sound settings e

theorem run_made (q : Rounding) (candles : List Candle) (settings : BacktestConfig) (params : TrendMomentumParams) :
    List.Forall₂ (Made q settings) (simulate q candles settings params).trades (runExits q settings candles params) := by
  rw [runExits]
  split
  · rename_i hshort
    rw [(simulate_of_short q settings hshort).1]
    exact .nil
  · rename_i hlong
    obtain ⟨new, hnew, hmade⟩ := loop_made q settings (warmupBars params) (biasSeries candles params)
      (candles.length - 1) candles 0 (initial settings)
    rw [(simulate_of_length q settings (Nat.not_lt.mp hlong)).1]
    have hloop : (loop q candles settings params).trades = new := hnew
    rw [hloop]
    exact List.rel_append hmade (end_made q settings candles _)

/-- Every fill of a run is a price that its bar traded, and no gap is filled
better than at the open, exactly where no bar opens beyond an adverse level of
the position that it manages, nor lies wholly beyond its target without
reaching an adverse level. -/
theorem fillsTraded_iff (q : Rounding) (candles : List Candle) (settings : BacktestConfig)
    (params : TrendMomentumParams) :
    FillsTraded q candles settings params ↔ ∀ x ∈ runManaged q settings candles params, Within settings x.1 x.2 := by
  have hsound : (∀ e ∈ runExits q settings candles params, Sound settings e) ↔
      ∀ x ∈ runManaged q settings candles params, Within settings x.1 x.2 := by
    rw [runExits, runManaged]
    split
    · exact ⟨fun _ _ h => absurd h List.not_mem_nil, fun _ _ h => absurd h List.not_mem_nil⟩
    · rw [← exits_sound_iff, List.forall_mem_append]
      exact and_iff_left (end_sound settings)
  exact ⟨fun h => hsound.mp h.sound, fun h => ⟨run_made q candles settings params, hsound.mpr h⟩⟩

section Example

theorem stop_bounds (percent : Decimal) (h : percent ∈ some (2 : Decimal)) : 0 < percent ∧ percent ≤ 90 := by
  obtain rfl := Option.some.inj h
  norm_num

def stoppedConfig : BacktestConfig :=
  { exampleConfig with
    stopLossPercent := some 2
    stopLossPercent_bounds := stop_bounds }

/-- A long at 110 with its stop at 107.8, and a bar that opens at 100 and falls. -/
def gapped : List Candle := exampleRise ++ [exampleCandle 5 100 90]

/-- The stop is filled at its level, above the whole bar. -/
theorem gap_filled_at_stop : ¬ FillsTraded quantized gapped stoppedConfig exampleParams := by
  intro h
  have hfill : ∃ e ∈ runExits quantized stoppedConfig gapped exampleParams, e.bar.high < e.rawPrice := by
    decide +kernel
  obtain ⟨e, he, hbeyond⟩ := hfill
  exact absurd (h.sound e he).traded.2 (not_le.mpr hbeyond)

end Example

end Aetheris.BacktestFills
