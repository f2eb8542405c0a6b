import Aetheris.Advice
import Aetheris.AutonomousEntries
import Aetheris.LivePaths

namespace Aetheris.Advice

open Lib Money Clock Enums OrderIdentity RiskEngine PaperRecords PaperPricing PaperEngine Autonomous Indicators TrendMomentum Regime Setup
  Strategies Backtest Intelligence Brains

section Conditions

variable {values values' : IndicatorValues} {params params' : TrendMomentumParams} {side : PositionSide}

/-- The bias that opens a position of a side. -/
def biasFor (side : PositionSide) : StrategyBias := if side = .long then .longBias else .shortBias

/-- The rules of a side. -/
def conditionsFor (side : PositionSide) (values : IndicatorValues) (params : TrendMomentumParams) : List ConditionOutcome :=
  if side = .long then (evaluateConditions values params).1 else (evaluateConditions values params).2.1

theorem names_conditionsFor (side : PositionSide) (values : IndicatorValues) (params : TrendMomentumParams) :
    (conditionsFor side values params).map ConditionOutcome.name = ["trend", "trend_strength", "momentum", "macd"] := by
  cases side <;> rfl

theorem all_conditionsFor :
    (conditionsFor side values params).all ConditionOutcome.satisfied ↔
      (evaluateConditions values params).2.2 = biasFor side := by
  rw [conditionsFor, biasFor]
  split
  · exact (long_iff values params).trans longBias_iff.symm
  · exact (short_iff values params).trans shortBias_iff.symm

theorem namedCondition_of_mem {conditions : List ConditionOutcome} {condition : ConditionOutcome}
    (hnames : (conditions.map ConditionOutcome.name).Nodup) (h : condition ∈ conditions) :
    namedCondition conditions condition.name = some condition := by
  cases hfound : namedCondition conditions condition.name with
  | none =>
      have hnone := List.find?_eq_none.mp hfound condition (List.mem_reverse.mpr h)
      exact absurd (decide_eq_true rfl) hnone
  | some found =>
      have hname : found.name = condition.name := by simpa using List.find?_some hfound
      have hmem := List.mem_reverse.mp (List.mem_of_find?_eq_some hfound)
      rw [List.inj_on_of_nodup_map hnames hmem h hname]

/-- Conditions of the same names are rechecked one by one. -/
theorem recheck_map {original current : List ConditionOutcome}
    (hnames : original.map ConditionOutcome.name = current.map ConditionOutcome.name)
    (hnodup : (current.map ConditionOutcome.name).Nodup) :
    (original.map (recheck current)).map Evidence.satisfied = current.map fun condition => some condition.satisfied := by
  have hname (condition other : ConditionOutcome) (h : condition.name = other.name) :
      recheck current condition = recheck current other := by
    rw [recheck, recheck, h]
  have hsame : original.map (recheck current) = current.map (recheck current) := by
    have hlength : original.length = current.length := by simpa using congrArg List.length hnames
    refine List.ext_getElem (by simpa using hlength) fun i hi hi' => ?_
    rw [List.getElem_map, List.getElem_map]
    refine hname _ _ ?_
    have hget := congrArg (fun names => names[i]?) hnames
    simpa [List.getElem?_eq_getElem (by simpa using hi : i < original.length),
      List.getElem?_eq_getElem (by simpa using hi' : i < current.length)] using hget
  rw [hsame, List.map_map]
  refine List.map_congr_left fun condition hcondition => ?_
  rw [Function.comp_apply, recheck, namedCondition_of_mem hnodup hcondition]

end Conditions

section Technical

variable {observation : PositionObservation} {strategy : StrategyContext} {bars : List Candle} {values entered : IndicatorValues}
  {params : TrendMomentumParams}

theorem currentConditions_eq (hbars : observation.candles = some bars)
    (hvalues : computeIndicatorValues bars observation.strategyParams = some values) :
    currentConditions observation = some (conditionsFor observation.position.side values observation.strategyParams,
      (evaluateConditions values observation.strategyParams).2.2) := by
  have hne : bars ≠ [] := by
    rintro rfl
    rw [computeIndicatorValues_eq] at hvalues
    cases hvalues
  simp [currentConditions, hbars, hne, hvalues, conditionsFor, PositionObservation.isLong]

/-- The brain has the thesis of the position, the conditions of which it was opened under. -/
structure Opened (observation : PositionObservation) (strategy : StrategyContext) : Prop where
  thesis : observation.position.thesis.bind PositionThesis.strategy = some strategy
  conditions : ∃ entered params, strategy.entryConditions = conditionsFor observation.position.side entered params

theorem Opened.names (h : Opened observation strategy) :
    strategy.entryConditions.map ConditionOutcome.name = ["trend", "trend_strength", "momentum", "macd"] := by
  obtain ⟨entered, params, hconditions⟩ := h.conditions
  rw [hconditions, names_conditionsFor]

theorem Opened.entryConditions_ne_nil (h : Opened observation strategy) : strategy.entryConditions ≠ [] := by
  intro hnil
  have hnames := h.names
  rw [hnil] at hnames
  cases hnames

/-- Without figures there is nothing to recheck. -/
theorem technicalBrain_of_none (h : Opened observation strategy) (hbars : observation.candles = some bars)
    (hvalues : computeIndicatorValues bars observation.strategyParams = none) :
    (technicalBrain observation).state = .unavailable := by
  have hcurrent : currentConditions observation = none := by
    simp [currentConditions, hbars, hvalues]
  rw [technicalBrain, h.thesis]
  dsimp only
  rw [if_neg h.entryConditions_ne_nil, hcurrent]
  rfl

/-- With figures, each of the original conditions is what the rule set now says of it. -/
theorem technicalBrain_of_values (h : Opened observation strategy) (hbars : observation.candles = some bars)
    (hvalues : computeIndicatorValues bars observation.strategyParams = some values) :
    (technicalBrain observation).evidence.map Evidence.name = strategy.entryConditions.map ConditionOutcome.name ∧
    (technicalBrain observation).evidence.map Evidence.satisfied =
      (conditionsFor observation.position.side values observation.strategyParams).map (fun c => some c.satisfied) ∧
    ((technicalBrain observation).state = .supportive ↔
      (conditionsFor observation.position.side values observation.strategyParams).all ConditionOutcome.satisfied) := by
  have hnames := h.names
  rw [← names_conditionsFor observation.position.side values observation.strategyParams] at hnames
  have hrecheck := recheck_map hnames (by rw [names_conditionsFor]; decide)
  have hname (current : List ConditionOutcome) (condition : ConditionOutcome) :
      (recheck current condition).name = condition.name := by
    rw [recheck]
    split <;> rfl
  rw [technicalBrain, h.thesis]
  dsimp only
  rw [if_neg h.entryConditions_ne_nil, currentConditions_eq hbars hvalues]
  dsimp only
  generalize conditionsFor observation.position.side values observation.strategyParams = current at *
  refine ⟨?_, hrecheck, ?_⟩
  · rw [List.map_map]
    exact List.map_congr_left fun condition _ => hname current condition
  · have hheld : ((strategy.entryConditions.map (recheck current)).filter fun row => row.satisfied = some true).length =
        (current.filter ConditionOutcome.satisfied).length := by
      have hcount := congrArg (fun answers => (answers.filter fun answer => answer = some true).length) hrecheck
      simpa [List.filter_map, Function.comp_def] using hcount
    have htotal : strategy.entryConditions.length = current.length := by simpa using congrArg List.length hnames
    rw [hheld, htotal, List.all_eq_true, ← List.length_filter_eq_length_iff]
    split
    · exact iff_of_true rfl ‹_›
    · split
      · exact iff_of_false BrainState.noConfusion ‹_›
      · exact iff_of_false BrainState.noConfusion ‹_›

end Technical

section Ladder

variable {observation : PositionObservation}

@[simp]
theorem brain_unavailable (brain : BrainName) (observation : PositionObservation) (detail name : String) :
    (unavailable brain observation detail name).brain = brain := rfl

@[simp]
theorem brain_marketBrain (observation : PositionObservation) : (marketBrain observation).brain = .market := by
  rw [marketBrain]
  dsimp only
  split <;> rfl

@[simp]
theorem brain_technicalBrain (observation : PositionObservation) : (technicalBrain observation).brain = .technical := by
  rw [technicalBrain]
  split
  · rfl
  · dsimp only
    split
    · rfl
    · split <;> rfl

@[simp]
theorem brain_regimeBrain (observation : PositionObservation) : (regimeBrain observation).brain = .regime := by
  rw [regimeBrain]
  split <;> rfl

@[simp]
theorem brain_momentumVolumeBrain (observation : PositionObservation) :
    (momentumVolumeBrain observation).brain = .momentumVolume := by
  rw [momentumVolumeBrain]
  dsimp only
  split
  · rfl
  · split <;> rfl

@[simp]
theorem brain_structureBrain (observation : PositionObservation) : (structureBrain observation).brain = .structural := rfl

@[simp]
theorem brain_positionBrain (observation : PositionObservation) : (positionBrain observation).brain = .position := by
  rw [positionBrain]
  dsimp only
  split <;> rfl

@[simp]
theorem brain_riskBrain (observation : PositionObservation) : (riskBrain observation).brain = .risk := rfl

@[simp]
theorem brain_exitBrain (observation : PositionObservation) (upstream : List BrainResult) :
    (exitBrain observation upstream).brain = .exit := rfl

theorem byName_technical (observation : PositionObservation) :
    byName (evaluatePosition observation).brainResults .technical = some (technicalBrain observation) := by
  simp [byName, evaluatePosition, consulted, Panel.results]

/-- A reversal is not confirmed as long as the thesis holds. -/
theorem exit_of_supportive (h : (technicalBrain observation).state = .supportive) :
    (consulted observation).exit.state ≠ .adverse := by
  have hbroken : isAdverse (byName [marketBrain observation, technicalBrain observation, regimeBrain observation,
      momentumVolumeBrain observation, structureBrain observation, positionBrain observation, riskBrain observation]
      .technical) = false := by
    simp [byName, isAdverse, h]
  intro hadverse
  simp only [consulted, exitBrain, hbroken, Bool.false_and, Bool.false_eq_true, if_false] at hadverse
  split at hadverse
  · cases hadverse
  · split at hadverse <;> cases hadverse

/-- Neither protection nor an exit is advised while the thesis holds in a regime that does not oppose it. -/
theorem decision_of_supportive (h : (technicalBrain observation).state = .supportive)
    (hregime : (regimeBrain observation).state ≠ .adverse) :
    (evaluatePosition observation).decision ≠ .protect ∧ (evaluatePosition observation).decision ≠ .exit := by
  have hexit := exit_of_supportive h
  have hquiet : ¬ ((consulted observation).technical.state = .adverse ∨ (consulted observation).regime.state = .adverse) := by
    rintro (hadverse | hadverse)
    · exact BrainState.noConfusion (h.symm.trans hadverse)
    · exact hregime hadverse
  have hdecision : (evaluatePosition observation).decision = (resolve observation (consulted observation)).1 := rfl
  rw [hdecision, resolve]
  dsimp only
  rw [if_neg hexit, if_neg hquiet]
  split
  · exact ⟨PositionDecision.noConfusion, PositionDecision.noConfusion⟩
  · split
    · exact ⟨PositionDecision.noConfusion, PositionDecision.noConfusion⟩
    · split
      · exact ⟨PositionDecision.noConfusion, PositionDecision.noConfusion⟩
      · split
        · exact ⟨PositionDecision.noConfusion, PositionDecision.noConfusion⟩
        · split <;> exact ⟨PositionDecision.noConfusion, PositionDecision.noConfusion⟩

end Ladder

section Regime

variable {candles : List Candle} {regimeParams : RegimeParams} {params : TrendMomentumParams} {values : IndicatorValues}

theorem ruled_direction (adx emaFast emaSlow atrPercent : Decimal) :
    ((ruled adx emaFast emaSlow atrPercent).1 = .trendUp → emaSlow < emaFast) ∧
      ((ruled adx emaFast emaSlow atrPercent).1 = .trendDown → emaFast < emaSlow) := by
  rw [ruled]
  split
  · rename_i hup
    exact ⟨fun _ => hup.2, MarketRegime.noConfusion⟩
  · split
    · rename_i hdown
      exact ⟨MarketRegime.noConfusion, fun _ => hdown.2⟩
    · split
      · exact ⟨MarketRegime.noConfusion, MarketRegime.noConfusion⟩
      · split <;> exact ⟨MarketRegime.noConfusion, MarketRegime.noConfusion⟩

/-- The regime and the rule set read the trend off the same pair of averages. -/
theorem regime_direction (hfast : regimeParams.emaFast = params.emaFast) (hslow : regimeParams.emaSlow = params.emaSlow)
    (hvalues : computeIndicatorValues candles params = some values) :
    ((classifyRegime candles regimeParams).regime = .trendUp → values.emaSlow < values.emaFast) ∧
      ((classifyRegime candles regimeParams).regime = .trendDown → values.emaFast < values.emaSlow) := by
  obtain ⟨n, hlength⟩ : ∃ n, candles.length = n + 1 := by
    cases hlength : candles.length with
    | zero =>
        rw [List.length_eq_zero_iff.mp hlength, computeIndicatorValues_eq] at hvalues
        cases hvalues
    | succ n => exact ⟨n, rfl⟩
  rw [computeIndicatorValues_of_length hlength] at hvalues
  obtain ⟨hemaFast, hemaSlow, -⟩ := valueAt_of_figuresAt hvalues
  obtain ⟨last, hlast⟩ : ∃ last, candles.getLast? = some last := by
    rw [List.getLast?_eq_getElem?, hlength]
    exact ⟨_, List.getElem?_eq_getElem (by omega)⟩
  have hmeasuredFast : (measure candles last.close regimeParams).emaFast = some values.emaFast := by
    rw [← hemaFast, ← hfast]
    exact (latest_ema hlength _).1
  have hmeasuredSlow : (measure candles last.close regimeParams).emaSlow = some values.emaSlow := by
    rw [← hemaSlow, ← hslow]
    exact (latest_ema hlength _).1
  rw [classifyRegime, hlast]
  dsimp only
  rw [hmeasuredFast, hmeasuredSlow]
  split
  · rename_i adx fast slow atrPercent _ hf hs _
    obtain rfl := Option.some.inj hf
    obtain rfl := Option.some.inj hs
    exact ruled_direction _ _ _ _
  · exact ⟨MarketRegime.noConfusion, MarketRegime.noConfusion⟩

end Regime

section Answers

variable {bars : List Candle} {position : PaperPosition} {klines : Klines}

/-- The request for the candles of a check is answered with these bars. -/
def Serves (klines : Klines) (symbol : String) (bars : List Candle) : Prop :=
  ∃ observation, klines symbol intelligenceTimeframe intelligenceCandles = some observation ∧ observation.status = "OK" ∧
    observation.candles = some bars

/-- What the check sees of an answer. -/
theorem observe_of_serves (h : Serves klines position.symbol bars) (account : PaperAccount) (now : Timestamp)
    (takerFeeBps : Decimal) (pending : Nat) :
    (observe account position now takerFeeBps klines pending).candles = some bars ∧
      (observe account position now takerFeeBps klines pending).regime = some (classifyRegime bars defaultRegimeParams) := by
  obtain ⟨answer, hanswer, hstatus, hbars⟩ := h
  simp [observe, hanswer, hstatus, hbars, Option.filter]

/-- The rules of a side exclude the regime that opposes it. -/
theorem regimeBrain_of_satisfied {observation : PositionObservation} {values : IndicatorValues}
    (hregime : observation.regime = some (classifyRegime bars defaultRegimeParams))
    (hvalues : computeIndicatorValues bars defaultTrendMomentumParams = some values)
    (hsatisfied : (conditionsFor observation.position.side values defaultTrendMomentumParams).all ConditionOutcome.satisfied) :
    (regimeBrain observation).state ≠ .adverse := by
  have hfast : defaultRegimeParams.emaFast = defaultTrendMomentumParams.emaFast := rfl
  have hslow : defaultRegimeParams.emaSlow = defaultTrendMomentumParams.emaSlow := rfl
  obtain ⟨hup, hdown⟩ := regime_direction hfast hslow hvalues
  intro hadverse
  rw [regimeBrain, hregime] at hadverse
  split at hadverse
  · cases hadverse
  · rename_i assessment hassessment
    obtain ⟨hsome, -⟩ := Option.filter_eq_some_iff.mp hassessment
    obtain rfl := Option.some.inj hsome
    change (if _ then _ else _) = _ at hadverse
    split at hadverse
    · rename_i hopposing
      rw [conditionsFor] at hsatisfied
      by_cases hlong : observation.position.side = .long
      · rw [if_pos hlong] at hsatisfied
        rw [opposingRegime, PositionObservation.isLong, if_pos (by simpa using hlong)] at hopposing
        exact lt_asymm ((long_iff values _).mp hsatisfied).1 (hdown hopposing)
      · rw [if_neg hlong] at hsatisfied
        rw [opposingRegime, PositionObservation.isLong, if_neg (by simpa using hlong)] at hopposing
        exact lt_asymm ((short_iff values _).mp hsatisfied).1 (hup hopposing)
    · split at hadverse <;> cases hadverse

end Answers

section Recheck

variable [Runtime] {loop : AutonomousLoop} {closed bars : List Candle} {position : PaperPosition} {account : PaperAccount}
  {now : Timestamp} {takerFeeBps : Decimal} {klines : Klines} {pending : Nat}

/-- The terms are those of a position that the loop opened on what the rule set reads in these closed candles. -/
def OpenedOn (loop : AutonomousLoop) (closed : List Candle) (terms : EntryTerms) : Prop :=
  ∃ (evaluation : Evaluation) (symbol : String) (margin : Decimal) (config : PaperEngineConfig) (entry : Entry)
    (now : Timestamp) (orderId positionId : String),
    evaluation.result = evaluateFromCandles closed loop.timeframe defaultTrendMomentumParams ∧
      (evaluation.result.bias = some .longBias ∨ evaluation.result.bias = some .shortBias) ∧
      terms = (openedPosition config (loop.entryRequest symbol evaluation
        (if evaluation.result.bias = some .longBias then .buy else .sell) margin) (Runtime.upper symbol) entry now orderId
        positionId).toEntryTerms

/-- Every condition that was recorded at entry is found satisfied, and neither protection nor an exit is advised. -/
def Rechecked (position : PaperPosition) (found : PositionIntelligence) : Prop :=
  (∃ technical ∈ byName found.brainResults .technical, technical.state = .supportive ∧
    ∀ strategy ∈ position.thesis.bind PositionThesis.strategy, ∀ condition ∈ strategy.entryConditions,
      ∃ row ∈ technical.evidence, row.name = condition.name ∧ row.satisfied = some true) ∧
    found.decision ≠ .protect ∧ found.decision ≠ .exit

/-- What such a position was opened with. -/
theorem OpenedOn.recorded (h : OpenedOn loop closed position.toEntryTerms) :
    ∃ entered strategy, computeIndicatorValues closed defaultTrendMomentumParams = some entered ∧
      position.thesis.bind PositionThesis.strategy = some strategy ∧
      strategy.entryConditions = conditionsFor position.side entered defaultTrendMomentumParams ∧
      liveBias closed defaultTrendMomentumParams = some (biasFor position.side) := by
  obtain ⟨evaluation, symbol, margin, config, entry, opened, orderId, positionId, hresult, hbias, hterms⟩ := h
  have hthesis := congrArg (fun terms => terms.thesis.bind PositionThesis.strategy) hterms
  have hside := congrArg EntryTerms.side hterms
  cases hentered : computeIndicatorValues closed defaultTrendMomentumParams with
  | none =>
      have hnone : evaluation.result.bias = none := by rw [hresult, evaluateFromCandles, hentered]
      rw [hnone] at hbias
      rcases hbias with hbias | hbias <;> cases hbias
  | some entered =>
      have hread : evaluation.result.bias = some (evaluateConditions entered defaultTrendMomentumParams).2.2 ∧
          evaluation.result.longConditions = (evaluateConditions entered defaultTrendMomentumParams).1 ∧
          evaluation.result.shortConditions = (evaluateConditions entered defaultTrendMomentumParams).2.1 := by
        rw [hresult, evaluateFromCandles, hentered]
        exact ⟨rfl, rfl, rfl⟩
      have hlive : liveBias closed defaultTrendMomentumParams = evaluation.result.bias := by
        rw [liveBias, hentered, hread.1]
        rfl
      refine ⟨entered, _, rfl, hthesis, ?_⟩
      change (if evaluation.result.bias = some .longBias then _ else _) = _ ∧ _
      rcases hbias with hbias | hbias
      · rw [if_pos hbias] at hside
        have hlong : position.side = .long := hside
        rw [if_pos hbias, conditionsFor, if_pos hlong, biasFor, if_pos hlong, hlive]
        exact ⟨hread.2.1, hbias⟩
      · have hother : evaluation.result.bias ≠ some .longBias := by
          rw [hbias]
          decide
        rw [if_neg hother] at hside
        have hshort : position.side ≠ .long := by
          rw [show position.side = .short from hside]
          decide
        rw [if_neg hother, conditionsFor, if_neg hshort, biasFor, if_neg hshort, hlive]
        exact ⟨hread.2.2, hbias⟩

/-- A check finds the thesis intact exactly if the rule set reads the entered side off the bars that the check is served. -/
theorem rechecked_iff (hopened : OpenedOn loop closed position.toEntryTerms) (hserves : Serves klines position.symbol bars)
    (account : PaperAccount) (now : Timestamp) (takerFeeBps : Decimal) (pending : Nat) :
    Rechecked position (evaluatePosition (observe account position now takerFeeBps klines pending)) ↔
      liveBias bars defaultTrendMomentumParams = some (biasFor position.side) := by
  obtain ⟨entered, strategy, -, hthesis, hconditions, -⟩ := hopened.recorded
  obtain ⟨hbars, hregime⟩ := observe_of_serves hserves account now takerFeeBps pending
  have hrecorded : Opened (observe account position now takerFeeBps klines pending) strategy :=
    ⟨hthesis, entered, _, hconditions⟩
  rw [Rechecked, byName_technical, liveBias]
  cases hvalues : computeIndicatorValues bars defaultTrendMomentumParams with
  | none =>
      have hstate := technicalBrain_of_none hrecorded hbars hvalues
      refine iff_of_false ?_ (by simp)
      rintro ⟨⟨technical, htechnical, hsupportive, -⟩, -⟩
      obtain rfl := Option.some.inj htechnical
      exact BrainState.noConfusion (hstate.symm.trans hsupportive)
  | some values =>
      obtain ⟨hnames, hsatisfied, hstate⟩ := technicalBrain_of_values hrecorded hbars hvalues
      rw [Option.map_some, Option.some.injEq, ← all_conditionsFor]
      constructor
      · rintro ⟨⟨technical, htechnical, hsupportive, -⟩, -⟩
        obtain rfl := Option.some.inj htechnical
        exact hstate.mp hsupportive
      · intro hall
        have hquiet := regimeBrain_of_satisfied hregime hvalues hall
        refine ⟨⟨_, rfl, hstate.mpr hall, fun strategy' hstrategy' condition hcondition => ?_⟩,
          decision_of_supportive (hstate.mpr hall) hquiet⟩
        obtain rfl := Option.some.inj (hthesis.symm.trans hstrategy')
        have hname := List.mem_map_of_mem (f := ConditionOutcome.name) hcondition
        rw [← hnames] at hname
        obtain ⟨row, hrow, hsame⟩ := List.mem_map.mp hname
        have hanswer := List.mem_map_of_mem (f := Evidence.satisfied) hrow
        rw [hsatisfied] at hanswer
        obtain ⟨current, hcurrent, hanswer⟩ := List.mem_map.mp hanswer
        refine ⟨row, hrow, hsame, ?_⟩
        rw [← hanswer, List.all_eq_true.mp hall current hcurrent]

/-- The check of a position that the loop opened finds the thesis intact exactly if the rule set reads the entered side off
the hourly bars that the check is served: so on the very bars of the entry, and, whatever the closed hourly bars are, not
with every bar that may be forming after them. -/
theorem thesis_recheck (hopened : OpenedOn loop closed position.toEntryTerms) {symbol : String}
    (hheld : account.positions.find? (fun p => p.symbol = Runtime.upper symbol) = some position) (now : Timestamp)
    (takerFeeBps : Decimal) (pending : Nat) :
    (∀ klines bars, Serves klines position.symbol bars →
      ((∃ found ∈ positionIntelligence account symbol now takerFeeBps klines pending, Rechecked position found) ↔
        liveBias bars defaultTrendMomentumParams = some (biasFor position.side))) ∧
    (∀ klines, Serves klines position.symbol closed →
      ∃ found ∈ positionIntelligence account symbol now takerFeeBps klines pending, Rechecked position found) ∧
    ∀ (past : List Candle) (openTime closeTime : Timestamp), openTime < closeTime →
      ∃ bar : Candle, bar.openTime = openTime ∧ bar.closeTime = closeTime ∧
        ∀ klines, Serves klines position.symbol (past ++ [bar]) →
          ¬ ∃ found ∈ positionIntelligence account symbol now takerFeeBps klines pending, Rechecked position found := by
  have hfound (klines : Klines) :
      (∃ found ∈ positionIntelligence account symbol now takerFeeBps klines pending, Rechecked position found) ↔
        Rechecked position (evaluatePosition (observe account position now takerFeeBps klines pending)) := by
    rw [positionIntelligence, hheld]
    simp
  have hiff (klines : Klines) (bars : List Candle) (hserves : Serves klines position.symbol bars) :=
    (hfound klines).trans (rechecked_iff hopened hserves account now takerFeeBps pending)
  refine ⟨hiff, fun klines hserves => ?_, fun past openTime closeTime ordered => ?_⟩
  · obtain ⟨-, -, -, -, -, hread⟩ := hopened.recorded
    exact (hiff klines closed hserves).mpr hread
  · obtain ⟨bar, hopens, hcloses, hsilent⟩ := exists_silent past defaultTrendMomentumParams ordered
    refine ⟨bar, hopens, hcloses, fun klines hserves hrechecked => hsilent ⟨_, (hiff klines _ hserves).mp hrechecked, ?_⟩⟩
    rw [biasFor]
    split <;> exact StrategyBias.noConfusion

end Recheck

section Climb

/-- A market that climbs in steps of seven up and three down, just far enough for every average to be there. -/
def exampleClimb : List Candle :=
  (List.range 55).map fun i => exampleCandle i (1000 + i + 5 * (i % 2)) (1001 + i + 5 * ((i + 1) % 2))

/-- The loop on hourly bars, so that the check reads the bars of the entry. -/
def exampleHourly : AutonomousLoop := { AutonomousEntries.exampleLoop with timeframe := .h1 }

def exampleEvaluation : Evaluation where
  barClose := 55
  result := evaluateFromCandles exampleClimb exampleHourly.timeframe defaultTrendMomentumParams

def exampleEntry : Entry where
  price := 1055
  priceSource := "binance"
  quantity := 1
  notional := 1055
  margin := 1055
  approvedLeverage := 1

def examplePosition : PaperPosition where
  toMutablePosition := openedPosition AutonomousEntries.shortLog
    (@AutonomousLoop.entryRequest exampleHourly referenceRuntime "BTCUSDT" exampleEvaluation .buy 1055)
    (@Runtime.upper referenceRuntime "BTCUSDT") exampleEntry 55 "paper-order-1" "paper-position-1"

def exampleAccount : PaperAccount where
  accountId := "paper"
  createdAt := 0
  updatedAt := 55
  startingBalance := 10000
  balance := 10000
  equity := 10000
  availableBalance := 8945
  marginUsed := 1055
  realizedPnl := 0
  unrealizedPnl := none
  totalFees := 0
  positions := [examplePosition]
  recentOrders := []
  recentTrades := []
  session := { sessionDate := 0, profitTarget := 100, lossLimit := 100 }
  autonomousEnabled := true
  durability := .inMemory
  markSource := none
  markStatus := none

/-- A market that has these bars. -/
def exampleKlines (bars : List Candle) : Klines := fun _ _ _ =>
  some { candles := some bars, source := "binance", status := "OK", ageSeconds := some 1 }

theorem serves_exampleKlines (symbol : String) (bars : List Candle) : Serves (exampleKlines bars) symbol bars :=
  ⟨_, rfl, rfl, rfl⟩

theorem bias_exampleClimb : exampleEvaluation.result.bias = some .longBias := by
  decide +kernel

theorem examplePosition_opened : @OpenedOn referenceRuntime exampleHourly exampleClimb examplePosition.toEntryTerms := by
  refine ⟨exampleEvaluation, "BTCUSDT", 1055, AutonomousEntries.shortLog, exampleEntry, 55, "paper-order-1",
    "paper-position-1", rfl, Or.inl bias_exampleClimb, ?_⟩
  rw [if_pos bias_exampleClimb]
  rfl

theorem examplePosition_held :
    exampleAccount.positions.find? (fun p => p.symbol = @Runtime.upper referenceRuntime "BTCUSDT") = some examplePosition :=
  List.find?_cons_of_pos (decide_eq_true rfl)

/-- On the bars of the entry the thesis is found intact. -/
theorem thesis_recheck_climb :
    ∃ found ∈ @positionIntelligence referenceRuntime exampleAccount "BTCUSDT" 56 5 (exampleKlines exampleClimb) 0,
      Rechecked examplePosition found :=
  (@thesis_recheck referenceRuntime _ _ _ exampleAccount examplePosition_opened "BTCUSDT" examplePosition_held 56 5 0).2.1 _
    (serves_exampleKlines _ _)

/-- The next hour has begun with a fall: the check advises to leave a position that its entry rules still support over
every closed bar. -/
theorem forming_hour_breaks_thesis :
    @OpenedOn referenceRuntime exampleHourly exampleClimb examplePosition.toEntryTerms ∧
      (@positionIntelligence referenceRuntime exampleAccount "BTCUSDT" 56 5
        (exampleKlines (exampleClimb ++ [exampleCandle 55 1055 500])) 0).map PositionIntelligence.decision = some .exit ∧
      ¬ ∃ found ∈ @positionIntelligence referenceRuntime exampleAccount "BTCUSDT" 56 5
        (exampleKlines (exampleClimb ++ [exampleCandle 55 1055 500])) 0, Rechecked examplePosition found := by
  have hdecision : (@positionIntelligence referenceRuntime exampleAccount "BTCUSDT" 56 5
      (exampleKlines (exampleClimb ++ [exampleCandle 55 1055 500])) 0).map PositionIntelligence.decision = some .exit := by
    change ((exampleAccount.positions.find? _).map _).map _ = _
    rw [examplePosition_held]
    decide +kernel
  refine ⟨examplePosition_opened, hdecision, ?_⟩
  rintro ⟨found, hfound, -, -, hexit⟩
  rw [Option.mem_def.mp hfound, Option.map_some] at hdecision
  exact hexit (Option.some.inj hdecision)

end Climb

end Aetheris.Advice
