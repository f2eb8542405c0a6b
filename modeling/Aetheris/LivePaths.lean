import Aetheris.BiasSymmetry
import Aetheris.LastBar
import Aetheris.Strategies

namespace Aetheris.Strategies

open Lib Money Clock OrderIdentity PaperRecords Autonomous Indicators TrendMomentum Setup Backtest

section Sides

variable {candles : List Candle} {context : DataContext} {now : Timestamp} {params : TrendMomentumParams}
  {setupParams : SetupParams}

/-- The rules call one of the two sides over these candles. -/
def Calls (candles : List Candle) (params : TrendMomentumParams) : Prop :=
  ∃ side, liveBias candles params = some side ∧ side ≠ .neutral

/-- The direction that a bias stands for. -/
def directionOf : Option StrategyBias → SetupDirection
  | some .longBias => .long
  | some .shortBias => .short
  | _ => .noSignal

theorem directionOf_eq_noSignal {bias : Option StrategyBias} :
    directionOf bias = .noSignal ↔ bias = none ∨ bias = some .neutral := by
  cases bias with
  | none => decide
  | some bias => cases bias <;> decide

theorem not_calls_iff : ¬ Calls candles params ↔ directionOf (liveBias candles params) = .noSignal := by
  rw [directionOf_eq_noSignal, Calls]
  cases liveBias candles params with
  | none => simp
  | some bias => simp

/-- The context of an answer that the analysis goes on with. -/
def Usable (context : DataContext) : Prop := context.dataStatus = "OK" ∧ context.ageSeconds ≠ none

theorem evaluateSetup_eq (husable : Usable context) :
    evaluateSetup candles context now params setupParams = buildSetup candles context now params setupParams := by
  rw [evaluateSetup, if_neg (not_not_intro husable.1), if_neg husable.2]

theorem directed_direction (regime : Regime.RegimeAssessment) (direction : SetupDirection)
    (conditions opposing : List ConditionOutcome) :
    (directed candles context now setupParams regime direction conditions opposing).direction = direction := by
  rw [directed]
  dsimp only
  split <;> rfl

/-- The direction of a setup is that of the bias over the candles that it is built from. -/
theorem buildSetup_direction :
    (buildSetup candles context now params setupParams).direction = directionOf (liveBias candles params) := by
  rw [buildSetup, liveBias]
  cases computeIndicatorValues candles params with
  | none => rfl
  | some values =>
      dsimp only
      rw [Option.map_some]
      cases (evaluateConditions values params).2.2 with
      | longBias => exact directed_direction _ _ _ _
      | shortBias => exact directed_direction _ _ _ _
      | neutral => rfl

/-- What of a setup a caller acts on. -/
def outcome (setup : TradeSetup) : SetupStatus × SetupDirection × Option Decimal × Option Decimal × Option SetupScore :=
  (setup.status, setup.direction, setup.riskReward.map RiskReward.stopPrice,
    setup.riskReward.map RiskReward.takeProfitPrice, setup.score)

/-- Without a side to take, all that is left of the candles is whether they are enough. -/
theorem outcome_of_not_calls (h : ¬ Calls candles params) :
    outcome (buildSetup candles context now params setupParams) =
      (if (computeIndicatorValues candles params).isSome then .noActionableSetup else .insufficientData, .noSignal, none,
        none, none) := by
  have hside := not_calls_iff.mp h
  rw [liveBias] at hside
  rw [buildSetup]
  cases hvalues : computeIndicatorValues candles params with
  | none => rfl
  | some values =>
      rw [hvalues, Option.map_some] at hside
      dsimp only
      cases hbias : (evaluateConditions values params).2.2 with
      | longBias =>
          rw [hbias] at hside
          cases hside
      | shortBias =>
          rw [hbias] at hside
          cases hside
      | neutral => rfl

end Sides

section Preparation

variable {candles : List Candle} {context : DataContext} {now : Timestamp} {params : TrendMomentumParams}

/-- An answer as the venue gives it: oldest bar first, and none but the last still forming. -/
structure RawAnswer (candles : List Candle) (now : Timestamp) : Prop where
  ascending : StrictlyAscending candles
  closed : ∀ bar ∈ candles.dropLast, bar.closeTime ≤ now

/-- The last bar has not closed yet. -/
def Forming (candles : List Candle) (now : Timestamp) : Prop := ∃ last ∈ candles.getLast?, now < last.closeTime

theorem closedBars_of_closed (h : ∀ bar ∈ candles, bar.closeTime ≤ now) : closedBars candles now = candles := by
  rw [closedBars, List.rdropWhile_eq_self_iff]
  intro hne
  simpa using h _ (List.getLast_mem hne)

theorem closedBars_of_forming (hraw : RawAnswer candles now) (h : Forming candles now) :
    closedBars candles now = candles.dropLast := by
  obtain ⟨last, hlast, hopen⟩ := h
  have hsplit := List.dropLast_append_getLast? last hlast
  conv_lhs => rw [← hsplit]
  rw [closedBars, List.rdropWhile_concat_pos _ _ _ (by simpa using hopen)]
  exact closedBars_of_closed hraw.closed

theorem closedBars_of_not_forming (hraw : RawAnswer candles now) (h : ¬ Forming candles now) :
    closedBars candles now = candles := by
  refine closedBars_of_closed fun bar hbar => ?_
  cases hlast : candles.getLast? with
  | none =>
      rw [List.getLast?_eq_none_iff.mp hlast] at hbar
      exact absurd hbar List.not_mem_nil
  | some last =>
      rw [← List.dropLast_append_getLast? last hlast] at hbar
      rcases List.mem_append.mp hbar with hbar | hbar
      · exact hraw.closed bar hbar
      · obtain rfl := List.mem_singleton.mp hbar
        exact le_of_not_gt fun hopen => h ⟨bar, hlast, hopen⟩

/-- The registry's verdict on a raw answer is that on its closed bars. -/
theorem evaluate_bias (hascending : StrictlyAscending candles) (husable : Usable context) :
    (evaluate strategyKey candles context now params).bias = liveBias (closedBars candles now) params := by
  have hempty : liveBias [] params = none := by
    rw [liveBias_eq]
    rfl
  rw [evaluate]
  dsimp only
  rw [if_neg (not_not_intro rfl), if_neg (not_not_intro husable.1), if_neg husable.2, prepareCandles]
  by_cases hnil : candles = []
  · subst hnil
    rw [if_pos rfl]
    exact hempty.symm
  · have hunique : (candles.map Candle.openTime).Nodup := by
      have hpairs : candles.Pairwise fun a b => a.openTime < b.openTime := List.isChain_iff_pairwise.mp hascending
      exact List.pairwise_map.mpr (hpairs.imp fun hlt => ne_of_lt hlt)
    rw [if_neg hnil, if_neg (not_not_intro hunique), if_pos hascending, dropForming]
    by_cases hclosed : closedBars candles now = []
    · rw [if_pos hclosed, hclosed, hempty]
      rfl
    · rw [if_neg hclosed]
      dsimp only
      rw [if_neg (not_not_intro rfl), evaluateFromCandles, liveBias]
      cases computeIndicatorValues (closedBars candles now) params <;> rfl

end Preparation

section FormingBar

variable {closed candles : List Candle} {now : Timestamp} {params : TrendMomentumParams} {setupParams : SetupParams}
  {context : DataContext}

theorem required_isSome {emaFast emaSlow adx rsi histogram : Option Decimal} :
    (required emaFast emaSlow adx rsi histogram).isSome =
      (emaFast.isSome && emaSlow.isSome && adx.isSome && rsi.isSome && histogram.isSome) := by
  cases emaFast <;> cases emaSlow <;> cases adx <;> cases rsi <;> cases histogram <;> rfl

/-- Whether the figures can be computed does not depend on what is in the last bar. -/
theorem computeIndicatorValues_isSome (closed : List Candle) (params : TrendMomentumParams) (bar bar' : Candle) :
    (computeIndicatorValues (closed ++ [bar]) params).isSome =
      (computeIndicatorValues (closed ++ [bar']) params).isSome := by
  rw [computeIndicatorValues_of_length (i := closed.length) (by simp),
    computeIndicatorValues_of_length (i := closed.length) (by simp), figuresAt, figuresAt, required_isSome,
    required_isSome, isSome_of_shape (shape_emaOfCloses closed bar bar' _),
    isSome_of_shape (shape_emaOfCloses closed bar bar' _), adx_isSome params.adxPeriod_bounds.1 closed bar bar',
    isSome_of_shape (shape_rsi closed bar bar' _), isSome_of_shape (shape_histogram closed bar bar' _ _ _)]

theorem no_volume : (0 : Decimal) ≤ 0 := le_refl 0

/-- A bar that has one price throughout. -/
def flatBar (openTime closeTime : Timestamp) (ordered : openTime < closeTime) (price : Decimal) (h : 0 ≤ price) :
    Candle where
  openTime := openTime
  closeTime := closeTime
  open_ := price
  high := price
  low := price
  close := price
  volume := 0
  low_nonneg := h
  low_le_open := le_refl price
  open_le_high := le_refl price
  low_le_close := le_refl price
  close_le_high := le_refl price
  volume_nonneg := no_volume
  ordered := ordered

/-- Whatever the closed bars are, a last bar that rises far enough leaves neither side to take. -/
theorem exists_silent (closed : List Candle) (params : TrendMomentumParams) {openTime closeTime : Timestamp}
    (ordered : openTime < closeTime) :
    ∃ bar : Candle, bar.openTime = openTime ∧ bar.closeTime = closeTime ∧ ¬ Calls (closed ++ [bar]) params := by
  have hlimit := params.rsiOverbought_bounds
  have hperiod := params.rsiPeriod_bounds
  have hpositive : 1 ≤ params.rsiPeriod := by omega
  have hnonneg : 0 ≤ params.rsiOverbought := by linarith
  obtain ⟨q, hq, hovershoot⟩ := exists_overbought hpositive closed hnonneg hlimit.2
  refine ⟨flatBar openTime closeTime ordered q hq, rfl, rfl, ?_⟩
  rintro ⟨side, hside, hcalls⟩
  obtain ⟨values, hvalues, rfl⟩ := Option.map_eq_some_iff.mp hside
  rw [computeIndicatorValues_of_length (i := closed.length) (by simp)] at hvalues
  have hrsi := hovershoot (flatBar openTime closeTime ordered q hq) rfl values.rsi (valueAt_of_figuresAt hvalues).2.2.2.1
  cases hbias : (evaluateConditions values params).2.2 with
  | longBias =>
      have hbelow := (longBias_iff.mp hbias).2.2.1.2
      linarith
  | shortBias =>
      have hbelow := (shortBias_iff.mp hbias).2.2.1.2
      linarith
  | neutral => exact hcalls hbias

end FormingBar

section Agreement

variable [Runtime] {candles : List Candle} {now : Timestamp}

/-- A setup and a strategy's verdict say the same. -/
def Agrees (found : TradeSetup) (reported : StrategyResult) : Prop :=
  (found.direction = .long → reported.bias = some .longBias) ∧
    (found.direction = .short → reported.bias = some .shortBias) ∧
    (found.direction = .noSignal ↔ reported.bias = none ∨ reported.bias = some .neutral)

/-- The bars with another one in the place of the last. -/
def withLast (candles : List Candle) (bar : Candle) : List Candle := candles.dropLast ++ [bar]

/-- Nothing that a caller acts on depends on what is in a bar that is still forming. -/
def Settled (candles : List Candle) (now : Timestamp) (found : List Candle → TradeSetup) : Prop :=
  ∀ last ∈ candles.getLast?, now < last.closeTime → ∀ bar : Candle, bar.openTime = last.openTime →
    bar.closeTime = last.closeTime → outcome (found (withLast candles bar)) = outcome (found candles)

/-- The setup of an answer agrees with the strategy on it and is settled by its closed bars exactly if no bar is still
forming, or no side is called over the closed bars, nor over them and anything that may be in the bar that is forming. -/
theorem live_paths_agree_iff (hraw : RawAnswer candles now) (observation : KlinesObservation)
    (hcandles : observation.candles = some candles) (hstatus : observation.status = "OK")
    (hage : observation.ageSeconds ≠ none) (symbol : String) (timeframe : Timeframe) (params : TrendMomentumParams)
    (setupParams : SetupParams) :
    (Agrees (setup observation symbol timeframe now params setupParams)
        (strategy observation symbol timeframe strategyKey now params) ∧
      Settled candles now fun bars =>
        setup { observation with candles := some bars } symbol timeframe now params setupParams) ↔
      ¬ Forming candles now ∨
        ¬ Calls candles.dropLast params ∧ ∀ last ∈ candles.getLast?, ∀ bar : Candle, bar.openTime = last.openTime →
          bar.closeTime = last.closeTime → ¬ Calls (withLast candles bar) params := by
  have husable : Usable (observation.context symbol timeframe) := ⟨hstatus, hage⟩
  have hsetup (bars : List Candle) : setup { observation with candles := some bars } symbol timeframe now params setupParams =
      buildSetup bars (observation.context symbol timeframe) now params setupParams := evaluateSetup_eq husable
  have hsame : setup observation symbol timeframe now params setupParams =
      buildSetup candles (observation.context symbol timeframe) now params setupParams := by
    rw [← hsetup, ← hcandles]
  have hbias : (strategy observation symbol timeframe strategyKey now params).bias =
      liveBias (closedBars candles now) params := by
    rw [strategy, hcandles]
    exact evaluate_bias hraw.ascending husable
  simp only [Settled, hsetup]
  rw [Agrees, hsame, hbias, buildSetup_direction]
  by_cases hforming : Forming candles now
  · rw [closedBars_of_forming hraw hforming]
    obtain ⟨last, hlast, hopen⟩ := hforming
    have hactual : withLast candles last = candles := List.dropLast_append_getLast? last hlast
    constructor
    · rintro ⟨⟨-, -, hsilent⟩, hsettled⟩
      obtain ⟨quiet, hopens, hcloses, hquiet⟩ := exists_silent candles.dropLast params last.ordered
      -- Any two bars that may be forming give the same direction, and one of them gives none.
      have hdirection (bar : Candle) (ho : bar.openTime = last.openTime) (hc : bar.closeTime = last.closeTime) :
          directionOf (liveBias (withLast candles bar) params) = directionOf (liveBias candles params) := by
        have houtcome := congrArg (fun found => found.2.1) (hsettled last hlast hopen bar ho hc)
        simpa only [outcome, buildSetup_direction] using houtcome
      have hnone : directionOf (liveBias candles params) = .noSignal := by
        rw [← hdirection quiet hopens hcloses]
        exact not_calls_iff.mp hquiet
      refine Or.inr ⟨not_calls_iff.mpr (directionOf_eq_noSignal.mpr (hsilent.mp hnone)), ?_⟩
      intro last' hlast' bar ho hc
      obtain rfl := Option.some.inj (hlast.symm.trans hlast')
      rw [not_calls_iff, hdirection bar ho hc, hnone]
    · rintro (hclosed | ⟨hclosed, hany⟩)
      · exact absurd ⟨last, hlast, hopen⟩ hclosed
      · have hnone : directionOf (liveBias candles params) = .noSignal := by
          have hquiet := hany last hlast last rfl rfl
          rw [hactual] at hquiet
          exact not_calls_iff.mp hquiet
        have hbefore := directionOf_eq_noSignal.mp (not_calls_iff.mp hclosed)
        rw [hnone]
        refine ⟨⟨nofun, nofun, iff_of_true rfl hbefore⟩, ?_⟩
        intro last' hlast' _ bar ho hc
        obtain rfl := Option.some.inj (hlast.symm.trans hlast')
        rw [outcome_of_not_calls (hany last hlast bar ho hc), outcome_of_not_calls (not_calls_iff.mpr hnone), withLast,
          computeIndicatorValues_isSome candles.dropLast params bar last]
        conv_rhs => rw [← hactual]
        rfl
  · rw [closedBars_of_not_forming hraw hforming]
    refine iff_of_true ⟨⟨?_, ?_, directionOf_eq_noSignal⟩, ?_⟩ (Or.inl hforming)
    · cases liveBias candles params with
      | none => nofun
      | some bias => cases bias <;> simp [directionOf]
    · cases liveBias candles params with
      | none => nofun
      | some bias => cases bias <;> simp [directionOf]
    · intro last hlast hopen
      exact absurd ⟨last, hlast, hopen⟩ hforming

end Agreement

section Dip

/-- A dip over four bars, and a fifth that has come back. -/
def exampleDip : List Candle :=
  [exampleCandle 0 100 100, exampleCandle 1 100 102, exampleCandle 2 102 101, exampleCandle 3 101 90,
    exampleCandle 4 90 112]

def exampleAnswer : KlinesObservation where
  candles := some exampleDip
  source := "binance"
  status := "OK"
  ageSeconds := some 1

def exampleSetupParams : SetupParams := { defaultSetupParams with stopModel := .fixedPercent }

theorem exampleDip_raw {now : Timestamp} (h : 4 ≤ now) : RawAnswer exampleDip now where
  ascending := by decide
  closed := by
    intro bar hbar
    have hdip : exampleDip.dropLast =
        [exampleCandle 0 100 100, exampleCandle 1 100 102, exampleCandle 2 102 101, exampleCandle 3 101 90] := rfl
    simp only [hdip, List.mem_cons, List.not_mem_nil, or_false] at hbar
    rcases hbar with rfl | rfl | rfl | rfl <;> exact le_trans (by decide) h

/-- Once its last bar has closed, the setup of the dip agrees with the strategy and is settled. -/
theorem live_paths_agree_closed :
    Agrees (@setup referenceRuntime exampleAnswer "BTCUSDT" .h1 5 exampleParams exampleSetupParams)
        (@strategy referenceRuntime exampleAnswer "BTCUSDT" .h1 strategyKey 5 exampleParams) ∧
      Settled exampleDip 5 fun bars => @setup referenceRuntime { exampleAnswer with candles := some bars } "BTCUSDT" .h1 5
        exampleParams exampleSetupParams := by
  refine (@live_paths_agree_iff referenceRuntime _ _ (exampleDip_raw (by decide)) exampleAnswer rfl rfl (by decide)
    "BTCUSDT" .h1 exampleParams exampleSetupParams).mpr (Or.inl ?_)
  rintro ⟨last, hlast, hopen⟩
  obtain rfl := Option.some.inj hlast
  exact absurd hopen (by decide)

/-- While it is forming, the same bar turns the setup long, where the closed bars say short. -/
theorem forming_bar_turns_the_setup :
    RawAnswer exampleDip 4 ∧
      (@setup referenceRuntime exampleAnswer "BTCUSDT" .h1 4 exampleParams exampleSetupParams).status = .actionable ∧
      (@setup referenceRuntime exampleAnswer "BTCUSDT" .h1 4 exampleParams exampleSetupParams).direction = .long ∧
      (@strategy referenceRuntime exampleAnswer "BTCUSDT" .h1 strategyKey 4 exampleParams).bias = some .shortBias ∧
      ¬ Agrees (@setup referenceRuntime exampleAnswer "BTCUSDT" .h1 4 exampleParams exampleSetupParams)
        (@strategy referenceRuntime exampleAnswer "BTCUSDT" .h1 strategyKey 4 exampleParams) := by
  have hlong : (@setup referenceRuntime exampleAnswer "BTCUSDT" .h1 4 exampleParams exampleSetupParams).direction = .long := by
    decide +kernel
  have hshort : (@strategy referenceRuntime exampleAnswer "BTCUSDT" .h1 strategyKey 4 exampleParams).bias = some .shortBias := by
    decide +kernel
  refine ⟨exampleDip_raw (by decide), by decide +kernel, hlong, hshort, fun hagrees => ?_⟩
  have hbias := hagrees.1 hlong
  rw [hshort] at hbias
  cases hbias

end Dip

end Aetheris.Strategies
