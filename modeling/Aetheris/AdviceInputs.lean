import Aetheris.AdviceLadder

namespace Aetheris.Advice

open Lib Money Clock Enums RiskEngine PaperRecords TrendMomentum Intelligence Brains

section Profit

variable {x y observation : PositionObservation}

/-- A position without its size, its result and the extremes that it has seen. -/
def unsized (position : PaperPosition) : PaperPosition :=
  { position with
    quantity := 0
    notional := 0
    margin := 0
    approvedLeverage := 0
    entryFee := 0
    liquidationPrice := none
    bestPrice := none
    worstPrice := none
    unrealizedPnl := none }

/-- The metrics are those of the position, at some fee. -/
def Measures (observation : PositionObservation) : Prop :=
  ∃ fee, observation.metrics = computePositionMetrics observation.position observation.now fee

/-- Observations that differ in the size and in the profit of the position alone. -/
structure Twins (x y : PositionObservation) : Prop where
  position : unsized x.position = unsized y.position
  now : x.now = y.now
  candles : x.candles = y.candles
  regime : x.regime = y.regime
  strategyParams : x.strategyParams = y.strategyParams
  riskLock : x.riskLock = y.riskLock
  riskLockReason : x.riskLockReason = y.riskLockReason
  unreconciledOrders : x.unreconciledOrders = y.unreconciledOrders
  left : Measures x
  right : Measures y

/-- What is left of an observation when the size and the profit are taken out. -/
def bare (observation : PositionObservation) : PositionObservation :=
  { observation with
    position := unsized observation.position
    metrics := computePositionMetrics (unsized observation.position) observation.now 0 }

theorem bare_of_twins (h : Twins x y) : bare x = bare y := by
  obtain ⟨hposition, hnow, hcandles, hregime, hparams, hlock, hreason, horders, -, -⟩ := h
  rw [bare, bare, hposition, hnow, hcandles, hregime, hparams, hlock, hreason, horders]

/-- The position brain reads the way to the target and to the stop, and no brain reads how much is gained. -/
theorem positionBrain_bare (h : Measures observation) :
    (positionBrain observation).state = (positionBrain (bare observation)).state ∧
      nearTarget observation = nearTarget (bare observation) := by
  obtain ⟨fee, hmetrics⟩ := h
  have htarget : observation.metrics.targetDistancePercent = (bare observation).metrics.targetDistancePercent := by
    rw [hmetrics]
    rfl
  have hremaining : observation.metrics.remainingR = (bare observation).metrics.remainingR := by
    rw [hmetrics]
    rfl
  have hmark : (bare observation).position.markPrice = observation.position.markPrice := rfl
  have hlevel : (bare observation).position.targetPrice = observation.position.targetPrice := rfl
  have hentry : (bare observation).position.entryPrice = observation.position.entryPrice := rfl
  cases hmarked : observation.position.markPrice with
  | none =>
      obtain ⟨hstate, hnear⟩ := positionBrain_unmarked hmarked
      obtain ⟨hstate', hnear'⟩ := positionBrain_unmarked (hmark.trans hmarked)
      exact ⟨hstate.trans hstate'.symm, hnear.trans hnear'.symm⟩
  | some mark =>
      have hnear : nearTarget observation = nearTarget (bare observation) := by
        rw [Bool.eq_iff_iff, nearTarget_iff hmarked, nearTarget_iff (hmark.trans hmarked), htarget, hlevel, hentry]
      refine ⟨?_, hnear⟩
      rw [positionBrain_state hmarked, positionBrain_state (hmark.trans hmarked), hremaining, hnear]

theorem advice_bare (h : Measures observation) : advice observation = advice (bare observation) := by
  obtain ⟨hstate, hnear⟩ := positionBrain_bare h
  rw [advice_eq, advice_eq, hstate, hnear]
  rfl

/-- A locked account, or an order that awaits reconciliation. -/
def Barred (observation : PositionObservation) : Prop :=
  observation.riskLock.blocksEntries ∨ 0 < observation.unreconciledOrders

theorem blocked_iff : blocked observation ↔ Barred observation := by
  rw [blocked, decide_eq_true_eq, Barred]

/-- The first rungs look at nothing that stands below them. -/
theorem resolve_blocking (observation : PositionObservation) (panel : Panel) :
    ((resolve observation panel).1 = .blockedByRisk ↔ Barred observation) ∧
      ((resolve observation panel).1 = .insufficientData ↔
        ¬ Barred observation ∧ (¬ panel.market.usable ∨ ¬ panel.technical.state.isMeasured)) := by
  have hrung := congrArg Prod.fst (resolve_rung observation panel)
  dsimp only at hrung
  rw [hrung, rung_blocked, rung_insufficient, blocked_iff]
  exact ⟨Iff.rfl, Iff.rfl⟩

/-- Size and profit have no say in the advice, and what bars it comes before everything else. -/
theorem profit_blind :
    (∀ x y, Twins x y → (evaluatePosition x).decision = (evaluatePosition y).decision ∧
      (evaluatePosition x).thesisState = (evaluatePosition y).thesisState) ∧
    (∀ observation, ((evaluatePosition observation).decision = .blockedByRisk ↔ Barred observation) ∧
      ((evaluatePosition observation).decision = .insufficientData ↔ ¬ Barred observation ∧
        (¬ (marketBrain observation).usable ∨ ¬ (technicalBrain observation).state.isMeasured))) ∧
    ∀ observation panel, ((resolve observation panel).1 = .blockedByRisk ↔ Barred observation) ∧
      ((resolve observation panel).1 = .insufficientData ↔
        ¬ Barred observation ∧ (¬ panel.market.usable ∨ ¬ panel.technical.state.isMeasured)) := by
  refine ⟨fun x y htwins => ?_, fun observation => resolve_blocking observation (consulted observation), resolve_blocking⟩
  have hadvice : advice x = advice y := by
    rw [advice_bare htwins.left, advice_bare htwins.right, bare_of_twins htwins]
  have hdecision : (advice x).1 = (advice y).1 := congrArg Prod.fst hadvice
  have hthesis : (advice x).2 = (advice y).2 := congrArg Prod.snd hadvice
  exact ⟨hdecision, hthesis⟩

end Profit

section Recheck

variable {observation : PositionObservation} {strategy : StrategyContext} {current : List ConditionOutcome}

/-- The current rule set has a condition of the name. -/
def known (current : List ConditionOutcome) (condition : ConditionOutcome) : Bool :=
  (namedCondition current condition.name).isSome

/-- The current rule set has a condition of the name, and it is satisfied. -/
def stillHolds (current : List ConditionOutcome) (condition : ConditionOutcome) : Bool :=
  (namedCondition current condition.name).any ConditionOutcome.satisfied

def recordedStrategy (observation : PositionObservation) : Option StrategyContext :=
  observation.position.thesis.bind PositionThesis.strategy

/-- The recorded conditions that can be re-checked. -/
def recheckable (observation : PositionObservation) : List ConditionOutcome :=
  match recordedStrategy observation, currentConditions observation with
  | some strategy, some (current, _) => strategy.entryConditions.filter (known current)
  | _, _ => []

/-- The observation of a position that recorded the re-checkable conditions alone. -/
def onlyRecheckable (observation : PositionObservation) : PositionObservation :=
  { observation with
    position := { observation.position with
      thesis := observation.position.thesis.map fun thesis =>
        { thesis with
          strategy := thesis.strategy.map fun strategy => { strategy with entryConditions := recheckable observation } } } }

/-- What could not be re-checked does not count as failed. -/
structure FairRecheck (observation : PositionObservation) : Prop where
  state : (technicalBrain observation).state = (technicalBrain (onlyRecheckable observation)).state
  alignment : (evaluatePosition observation).thesisAlignment.map ThesisAlignment.value = some 100 ↔
    (technicalBrain observation).state = .supportive
  unknown : recheckable observation = [] →
    (evaluatePosition observation).decision = if blocked observation then .blockedByRisk else .insufficientData

/-- There is something to re-check and something to check it against. -/
structure Measured (observation : PositionObservation) (strategy : StrategyContext) (current : List ConditionOutcome) :
    Prop where
  recorded : recordedStrategy observation = some strategy
  conditions : strategy.entryConditions ≠ []
  current : ∃ bias, currentConditions observation = some (current, bias)

/-- The state that so many conditions make of which so many hold. -/
def stateOf (held total : Nat) : BrainState :=
  if held = total then .supportive else if held * 3 ≤ total then .adverse else .weakening

theorem technicalBrain_measured (h : Measured observation strategy current) :
    (technicalBrain observation).evidence = strategy.entryConditions.map (recheck current) ∧
      (technicalBrain observation).state =
        stateOf ((strategy.entryConditions.map (recheck current)).filter fun row => row.satisfied = some true).length
          strategy.entryConditions.length := by
  obtain ⟨hrecorded, hconditions, bias, hcurrent⟩ := h
  rw [recordedStrategy] at hrecorded
  rw [technicalBrain, hrecorded]
  dsimp only
  rw [if_neg hconditions, hcurrent]
  exact ⟨rfl, rfl⟩

theorem technicalBrain_unmeasured (h : ∀ strategy current, ¬ Measured observation strategy current) :
    (technicalBrain observation).state = .unavailable := by
  rw [technicalBrain]
  cases hrecorded : observation.position.thesis.bind PositionThesis.strategy with
  | none => rfl
  | some strategy =>
      dsimp only
      split
      · rfl
      · rename_i hconditions
        cases hcurrent : currentConditions observation with
        | none => rfl
        | some found => exact absurd ⟨hrecorded, hconditions, found.2, hcurrent⟩ (h strategy found.1)

theorem recheck_satisfied (current : List ConditionOutcome) (condition : ConditionOutcome) :
    (recheck current condition).satisfied = (namedCondition current condition.name).map ConditionOutcome.satisfied := by
  rw [recheck]
  cases namedCondition current condition.name with
  | none => rfl
  | some latest => rfl

theorem known_of_stillHolds {condition : ConditionOutcome} (h : stillHolds current condition) : known current condition := by
  obtain ⟨latest, hlatest, -⟩ := Option.any_eq_true _ _ |>.mp h
  rw [known, hlatest]
  rfl

/-- How many of the conditions still hold, and how many can be re-checked. -/
def heldCount (current conditions : List ConditionOutcome) : Nat := (conditions.filter (stillHolds current)).length

def knownCount (current conditions : List ConditionOutcome) : Nat := (conditions.filter (known current)).length

theorem heldCount_rows (current conditions : List ConditionOutcome) :
    ((conditions.map (recheck current)).filter fun row => row.satisfied = some true).length = heldCount current conditions := by
  rw [heldCount, List.filter_map, List.length_map]
  refine congrArg List.length (List.filter_congr fun condition _ => ?_)
  rw [Function.comp_apply, recheck_satisfied, stillHolds]
  cases namedCondition current condition.name with
  | none => rfl
  | some latest => simp

theorem knownCount_rows (current conditions : List ConditionOutcome) :
    ((conditions.map (recheck current)).filter fun row => row.satisfied.isSome).length = knownCount current conditions := by
  rw [knownCount, List.filter_map, List.length_map]
  refine congrArg List.length (List.filter_congr fun condition _ => ?_)
  rw [Function.comp_apply, recheck_satisfied, Option.isSome_map, known]

theorem heldCount_known (current conditions : List ConditionOutcome) :
    heldCount current (conditions.filter (known current)) = heldCount current conditions := by
  rw [heldCount, heldCount, List.filter_filter]
  refine congrArg List.length (List.filter_congr fun condition _ => ?_)
  rw [Bool.and_eq_left_iff_imp]
  exact known_of_stillHolds

theorem heldCount_le (current conditions : List ConditionOutcome) :
    heldCount current conditions ≤ knownCount current conditions := by
  rw [← heldCount_known]
  exact List.length_filter_le _ _

theorem stateOf_measured (held total : Nat) : (stateOf held total).isMeasured := by
  rw [stateOf]
  split
  · rfl
  · split <;> rfl

theorem Measured.recheckable_eq (h : Measured observation strategy current) :
    recheckable observation = strategy.entryConditions.filter (known current) := by
  obtain ⟨hrecorded, -, bias, hcurrent⟩ := h
  rw [recheckable, hrecorded, hcurrent]

theorem recordedStrategy_only (observation : PositionObservation) :
    recordedStrategy (onlyRecheckable observation) =
      (recordedStrategy observation).map fun strategy => { strategy with entryConditions := recheckable observation } := by
  rw [recordedStrategy, recordedStrategy, onlyRecheckable]
  cases observation.position.thesis with
  | none => rfl
  | some thesis => rfl

/-- Only the re-checkable conditions: of as many as there are, unless there are none. -/
theorem technicalBrain_only (h : Measured observation strategy current) :
    (technicalBrain (onlyRecheckable observation)).state =
      if knownCount current strategy.entryConditions = 0 then .unavailable
      else stateOf (heldCount current strategy.entryConditions) (knownCount current strategy.entryConditions) := by
  have hrecheckable := h.recheckable_eq
  have hstrategy : recordedStrategy (onlyRecheckable observation) =
      some { strategy with entryConditions := recheckable observation } := by
    rw [recordedStrategy_only, h.recorded]
    rfl
  split
  · rename_i hnone
    refine technicalBrain_unmeasured fun strategy' current' hmeasured => hmeasured.conditions ?_
    obtain rfl := Option.some.inj (hstrategy.symm.trans hmeasured.recorded)
    exact hrecheckable.trans (List.length_eq_zero_iff.mp hnone)
  · rename_i hsome
    have hmeasured : Measured (onlyRecheckable observation) { strategy with entryConditions := recheckable observation }
        current := by
      refine ⟨hstrategy, ?_, h.current⟩
      change recheckable observation ≠ []
      rw [hrecheckable]
      exact fun hnil => hsome (List.length_eq_zero_iff.mpr hnil)
    rw [(technicalBrain_measured hmeasured).2, heldCount_rows]
    change stateOf (heldCount current (recheckable observation)) (recheckable observation).length = _
    rw [hrecheckable, heldCount_known]
    rfl

/-- A percentage in cents is a hundred where it is short of it by half a cent at most. -/
theorem percent_eq_hundred {held checked : Nat} (hchecked : 0 < checked) (hle : held ≤ checked) :
    FixedPoint.halfUp 100 ((held : Decimal) / checked * 100) = 100 ↔ 20000 * (checked - held) ≤ checked := by
  have hpos : (0 : Decimal) < checked := by exact_mod_cast hchecked
  have hheld : (held : Decimal) ≤ checked := by exact_mod_cast hle
  have hgrid : FixedPoint.Grid (100 : Decimal) 100 := ⟨10000, by norm_num⟩
  have hupper : FixedPoint.halfUp 100 ((held : Decimal) / checked * 100) ≤ 100 := by
    have hratio : (held : Decimal) / checked * 100 ≤ 100 := by
      have hone := (div_le_one hpos).mpr hheld
      linarith
    calc FixedPoint.halfUp 100 ((held : Decimal) / checked * 100) ≤ FixedPoint.halfUp 100 100 :=
          FixedPoint.halfUp_mono (by norm_num) hratio
      _ = 100 := FixedPoint.halfUp_of_grid (by norm_num) hgrid
  have hcast : 20000 * (checked - held) ≤ checked ↔ (20000 : Decimal) * (checked - held) ≤ checked := by
    rw [← Nat.cast_sub hle]
    exact_mod_cast Iff.rfl
  have hlower : (100 : Decimal) ≤ FixedPoint.halfUp 100 ((held : Decimal) / checked * 100) ↔
      (100 : Decimal) - 1 / (2 * 100) ≤ (held : Decimal) / checked * 100 :=
    FixedPoint.grid_le_halfUp_iff (by norm_num) hgrid (by norm_num)
  rw [hcast, le_antisymm_iff, and_iff_right hupper, hlower, ← div_le_iff₀ (by norm_num), le_div_iff₀ hpos]
  constructor <;> intro h <;> linarith

theorem alignment_measured (h : Measured observation strategy current) :
    (evaluatePosition observation).thesisAlignment.map ThesisAlignment.value =
      if knownCount current strategy.entryConditions = 0 then none
      else some (FixedPoint.halfUp 100
        ((heldCount current strategy.entryConditions : Decimal) / knownCount current strategy.entryConditions * 100)) := by
  have halignment : (evaluatePosition observation).thesisAlignment = alignment (technicalBrain observation) := rfl
  obtain ⟨hevidence, hstate⟩ := technicalBrain_measured h
  have hmeasured : (technicalBrain observation).state.isMeasured := by
    rw [hstate]
    exact stateOf_measured _ _
  have hheld : (((strategy.entryConditions.map (recheck current)).filter fun row => row.satisfied.isSome).filter
      fun row => row.satisfied = some true) = (strategy.entryConditions.map (recheck current)).filter
        fun row => row.satisfied = some true := by
    rw [List.filter_filter]
    refine List.filter_congr fun row _ => ?_
    cases row.satisfied with
    | none => rfl
    | some satisfied => exact Bool.and_true _
  have hguard {P : Prop} [Decidable P] (hp : P) (rest : Unit → Option ThesisAlignment) :
      (guard P >>= rest) = rest () := by
    rw [guard, if_pos hp]
    rfl
  rw [halignment, alignment, hguard hmeasured, hevidence]
  dsimp only
  rw [hheld, heldCount_rows, knownCount_rows]
  have hempty : (strategy.entryConditions.map (recheck current)).filter (fun row => row.satisfied.isSome) = [] ↔
      knownCount current strategy.entryConditions = 0 := by
    rw [← List.length_eq_zero_iff, knownCount_rows]
  split
  · rename_i hnone
    rw [guard, if_neg (not_not_intro (hempty.mpr hnone))]
    rfl
  · rename_i hsome
    have hne : (strategy.entryConditions.map (recheck current)).filter (fun row => row.satisfied.isSome) ≠ [] :=
      fun hnil => hsome (hempty.mp hnil)
    rw [hguard hne]
    rfl

/-- How many hold, of how many that can be re-checked, of how many that were recorded, for the reading to be fair. -/
structure Counted (held checked recorded : Nat) : Prop where
  whole : checked = recorded ∨ (held < checked ∧ ¬ (checked < 3 * held ∧ 3 * held ≤ recorded))
  exact : held < checked → checked < 20000 * (checked - held)

theorem counted_iff {held checked recorded : Nat} (hheld : held ≤ checked) (hchecked : checked ≤ recorded)
    (hrecorded : 0 < recorded) : Counted held checked recorded ↔
      checked ≠ 0 ∧ stateOf held recorded = stateOf held checked ∧
        (20000 * (checked - held) ≤ checked ↔ stateOf held recorded = .supportive) := by
  have hstates {total : Nat} : stateOf held total = .supportive ↔ held = total := by
    unfold stateOf
    grind
  have hsame : stateOf held recorded = stateOf held checked ↔
      (held = recorded ↔ held = checked) ∧ (held ≠ checked → (held * 3 ≤ recorded ↔ held * 3 ≤ checked)) := by
    unfold stateOf
    grind
  rw [hstates, hsame]
  constructor
  · rintro ⟨hwhole, hexact⟩
    omega
  · rintro ⟨hnone, hstate, halignment⟩
    exact ⟨by omega, by omega⟩

theorem decision_of_unavailable (h : (technicalBrain observation).state = .unavailable) :
    (evaluatePosition observation).decision = if blocked observation then .blockedByRisk else .insufficientData := by
  have hdecision : (evaluatePosition observation).decision = (advice observation).1 := rfl
  rw [hdecision, advice_eq, h]
  split
  · exact rung_blocked.mpr ‹_›
  · exact rung_insufficient.mpr ⟨‹_›, .inr Bool.false_ne_true⟩

theorem fairRecheck_unmeasured (h : ∀ strategy current, ¬ Measured observation strategy current) :
    FairRecheck observation := by
  have hunavailable := technicalBrain_unmeasured h
  have honly : (technicalBrain (onlyRecheckable observation)).state = .unavailable := by
    refine technicalBrain_unmeasured fun strategy current hmeasured => ?_
    obtain ⟨hrecorded, hconditions, hcurrent⟩ := hmeasured
    rw [recordedStrategy_only] at hrecorded
    obtain ⟨original, horiginal, rfl⟩ := Option.map_eq_some_iff.mp hrecorded
    refine h original current ⟨horiginal, fun hnil => hconditions ?_, hcurrent⟩
    obtain ⟨bias, hcurrent⟩ := hcurrent
    have hcurrent : currentConditions observation = some (current, bias) := hcurrent
    change recheckable observation = []
    rw [recheckable, horiginal, hcurrent]
    dsimp only
    rw [hnil, List.filter_nil]
  refine ⟨hunavailable.trans honly.symm, ?_, fun _ => decision_of_unavailable hunavailable⟩
  have halignment : (evaluatePosition observation).thesisAlignment = alignment (technicalBrain observation) := rfl
  rw [halignment, alignment, hunavailable]
  exact iff_of_false (fun h => nomatch h) BrainState.noConfusion

theorem fairRecheck_measured (h : Measured observation strategy current) :
    FairRecheck observation ↔
      Counted (heldCount current strategy.entryConditions) (knownCount current strategy.entryConditions)
        strategy.entryConditions.length := by
  have hstate : (technicalBrain observation).state =
      stateOf (heldCount current strategy.entryConditions) strategy.entryConditions.length := by
    rw [(technicalBrain_measured h).2, heldCount_rows]
  have halignment := alignment_measured h
  have honly := technicalBrain_only h
  have hheld := heldCount_le current strategy.entryConditions
  rw [counted_iff hheld (List.length_filter_le _ _) (List.length_pos_iff.mpr h.conditions), ← hstate]
  constructor
  · rintro ⟨hfair, hhundred, -⟩
    have hsome : knownCount current strategy.entryConditions ≠ 0 := by
      intro hnone
      rw [if_pos hnone] at honly
      have hmeasured := stateOf_measured (heldCount current strategy.entryConditions) strategy.entryConditions.length
      rw [← hstate, hfair, honly] at hmeasured
      cases hmeasured
    rw [if_neg hsome] at honly halignment
    refine ⟨hsome, hfair.trans honly, ?_⟩
    rw [← percent_eq_hundred (Nat.pos_of_ne_zero hsome) hheld, ← hhundred, halignment, Option.some.injEq]
  · rintro ⟨hsome, hsame, hhundred⟩
    rw [if_neg hsome] at honly halignment
    refine ⟨hsame.trans honly.symm, ?_, fun hnone => ?_⟩
    · rw [halignment, Option.some.injEq, percent_eq_hundred (Nat.pos_of_ne_zero hsome) hheld]
      exact hhundred
    · rw [h.recheckable_eq] at hnone
      exact absurd (List.length_eq_zero_iff.mpr hnone) hsome

/-- What is recorded but unknown counts as failed: the reading is fair as long as nothing is unknown, or the unknown ones
do not tip it. -/
theorem fairRecheck_iff (observation : PositionObservation) :
    FairRecheck observation ↔ ∀ strategy current, Measured observation strategy current →
      Counted (heldCount current strategy.entryConditions) (knownCount current strategy.entryConditions)
        strategy.entryConditions.length := by
  by_cases hmeasured : ∃ strategy current, Measured observation strategy current
  · obtain ⟨strategy, current, hmeasured⟩ := hmeasured
    rw [fairRecheck_measured hmeasured]
    refine ⟨fun hcounted strategy' current' hmeasured' => ?_, fun hall => hall strategy current hmeasured⟩
    obtain rfl := Option.some.inj (hmeasured.recorded.symm.trans hmeasured'.recorded)
    obtain ⟨bias, hcurrent⟩ := hmeasured.current
    obtain ⟨bias', hcurrent'⟩ := hmeasured'.current
    obtain ⟨rfl, -⟩ := Prod.mk.inj (Option.some.inj (hcurrent.symm.trans hcurrent'))
    exact hcounted
  · have hnone : ∀ strategy current, ¬ Measured observation strategy current := fun strategy current h =>
      hmeasured ⟨strategy, current, h⟩
    exact iff_of_true (fairRecheck_unmeasured hnone) fun strategy current h => absurd h (hnone strategy current)

/-- A position whose only recorded condition is of a rule set that is no more. -/
def exampleOrphan : PositionObservation :=
  observe exampleAccount
    { examplePosition with
      markPrice := some 1055
      markSource := some "binance"
      markStatus := some "OK"
      thesis := examplePosition.thesis.map fun thesis =>
        { thesis with
          strategy := thesis.strategy.map fun strategy =>
            { strategy with
              entryConditions := [{ name := "supertrend", satisfied := true, detail := "above" }] } } }
    56 5 (exampleKlines exampleClimb) 0

/-- The one condition that cannot be re-checked is taken for a failed thesis. -/
theorem orphan_protects : (evaluatePosition exampleOrphan).decision = .protect ∧ recheckable exampleOrphan = [] ∧
    ¬ FairRecheck exampleOrphan := by
  have hdecision : (evaluatePosition exampleOrphan).decision = .protect := by decide +kernel
  have hnone : recheckable exampleOrphan = [] := by decide +kernel
  refine ⟨hdecision, hnone, fun hfair => ?_⟩
  have hadvised := hfair.unknown hnone
  rw [hdecision] at hadvised
  split at hadvised <;> cases hadvised

end Recheck

end Aetheris.Advice
