import Aetheris.ThesisRecheck

namespace Aetheris.Advice

open Lib Money Clock RiskEngine PaperRecords TrendMomentum Intelligence Brains

section Rungs

variable {observation : PositionObservation} {panel : Panel}

/-- What the exit brain makes of the states that it reads. -/
def exitState (technical regime momentum position : BrainState) : BrainState :=
  if technical = .adverse ∧ (regime = .adverse ∨ momentum = .adverse ∨ position = .adverse) then .adverse
  else if technical = .adverse ∨ regime = .adverse ∨ technical = .weakening then .weakening
  else if technical.isMeasured then .supportive
  else .unavailable

/-- The rungs of the ladder without their reasons. -/
def rung (blocked usable : Bool) (technical regime exit : BrainState) (nearTarget : Bool) :
    PositionDecision × ThesisState :=
  if blocked then (.blockedByRisk, .blockedByRisk)
  else if ¬ usable then (.insufficientData, .insufficientData)
  else if ¬ technical.isMeasured then (.insufficientData, .insufficientData)
  else if exit = .adverse then (.exit, .exitConditionMet)
  else if technical = .adverse ∨ regime = .adverse then (.protect, .reversalWarning)
  else if nearTarget then (.trail, .targetApproaching)
  else if technical = .weakening ∨ exit = .weakening then (.hold, .thesisWeakening)
  else (.hold, .thesisValid)

/-- The account is locked, or an order awaits reconciliation. -/
def blocked (observation : PositionObservation) : Bool :=
  observation.riskLock.blocksEntries ∨ 0 < observation.unreconciledOrders

/-- The row of the position brain on the way to the target. -/
def nearTarget (observation : PositionObservation) : Bool :=
  (positionBrain observation).evidence.any fun row => row.name = "target_proximity" ∧ row.satisfied = some true

/-- What is advised, and why in a word. -/
def advice (observation : PositionObservation) : PositionDecision × ThesisState :=
  ((evaluatePosition observation).decision, (evaluatePosition observation).thesisState)

theorem resolve_rung (observation : PositionObservation) (panel : Panel) :
    ((resolve observation panel).1, (resolve observation panel).2.1) =
      rung (blocked observation) panel.market.usable panel.technical.state panel.regime.state panel.exit.state
        (panel.position.evidence.any fun row => row.name = "target_proximity" ∧ row.satisfied = some true) := by
  -- dropping the reasons goes under every branch
  change (fun advised : _ × _ × List String => (advised.1, advised.2.1)) (resolve observation panel) = _
  simp only [resolve, rung, blocked, apply_ite (fun advised : _ × _ × List String => (advised.1, advised.2.1)),
    decide_eq_true_eq]

theorem exitBrain_state (observation : PositionObservation) :
    (consulted observation).exit.state =
      exitState (technicalBrain observation).state (regimeBrain observation).state
        (momentumVolumeBrain observation).state (positionBrain observation).state := by
  simp [consulted, exitBrain, exitState, byName, isAdverse, isMeasured, or_assoc]

/-- The advice is the ladder's, on what the brains found. -/
theorem advice_eq (observation : PositionObservation) :
    advice observation = rung (blocked observation) (marketBrain observation).usable (technicalBrain observation).state
      (regimeBrain observation).state
      (exitState (technicalBrain observation).state (regimeBrain observation).state
        (momentumVolumeBrain observation).state (positionBrain observation).state) (nearTarget observation) := by
  rw [← exitBrain_state]
  exact resolve_rung observation (consulted observation)

section Reading

variable {risk usable near : Bool} {technical regime exit : BrainState}

theorem rung_blocked : (rung risk usable technical regime exit near).1 = .blockedByRisk ↔ risk := by
  unfold rung
  grind

theorem rung_insufficient : (rung risk usable technical regime exit near).1 = .insufficientData ↔
    ¬ risk ∧ (¬ usable ∨ ¬ technical.isMeasured) := by
  unfold rung
  grind

theorem rung_exit : (rung risk usable technical regime exit near).1 = .exit ↔
    ¬ risk ∧ usable ∧ technical.isMeasured ∧ exit = .adverse := by
  unfold rung
  grind

theorem near_of_trail (h : (rung risk usable technical regime exit near).1 = .trail ∨
    (rung risk usable technical regime exit near).2 = .targetApproaching) : near := by
  unfold rung at h
  grind

end Reading

theorem exitState_adverse {technical regime momentum position : BrainState} :
    exitState technical regime momentum position = .adverse ↔
      technical = .adverse ∧ (regime = .adverse ∨ momentum = .adverse ∨ position = .adverse) := by
  unfold exitState
  grind

/-- An exit is advised where nothing stands in the way, on a broken thesis that another brain confirms. -/
theorem decision_exit_iff : (evaluatePosition observation).decision = .exit ↔
    blocked observation = false ∧ (marketBrain observation).usable ∧ (technicalBrain observation).state = .adverse ∧
      ((regimeBrain observation).state = .adverse ∨ (momentumVolumeBrain observation).state = .adverse ∨
        (positionBrain observation).state = .adverse) := by
  have hrung : (evaluatePosition observation).decision = (advice observation).1 := rfl
  rw [hrung, advice_eq, rung_exit, exitState_adverse, Bool.not_eq_true]
  constructor
  · rintro ⟨hrisk, hmarket, -, hadverse⟩
    exact ⟨hrisk, hmarket, hadverse⟩
  · rintro ⟨hrisk, hmarket, hadverse, hsecond⟩
    exact ⟨hrisk, hmarket, by rw [hadverse]; rfl, hadverse, hsecond⟩

end Rungs

section Levels

variable {observation : PositionObservation} {mark target : Decimal} {fee : Decimal}

theorem remainingRow_name (remainingR : Option Decimal) : (remainingRow remainingR).name = "remaining_r" := by
  cases remainingR <;> rfl

/-- The row on the way to the target, where there is a target and its distance is known. -/
def targetEvidence (observation : PositionObservation) (mark : Decimal) : Option Evidence := do
  let distance ← observation.metrics.targetDistancePercent
  let target ← observation.position.targetPrice
  return targetRow distance (travelled observation.position.entryPrice mark target)

/-- No other row tells of the target. -/
theorem nearTarget_eq (hmark : observation.position.markPrice = some mark) :
    nearTarget observation = (targetEvidence observation mark).any fun row => row.satisfied = some true := by
  rw [nearTarget, positionBrain, PositionObservation.mark, hmark, targetEvidence]
  cases observation.metrics.targetDistancePercent with
  | none => simp [excursionRow, remainingRow_name]
  | some distance =>
      cases observation.position.targetPrice with
      | none => simp [excursionRow, remainingRow_name]
      | some target => simp [excursionRow, remainingRow_name, targetRow]

theorem nearTarget_iff (hmark : observation.position.markPrice = some mark) :
    nearTarget observation ↔ ∃ distance target covered, observation.metrics.targetDistancePercent = some distance ∧
      observation.position.targetPrice = some target ∧
      travelled observation.position.entryPrice mark target = some covered ∧ targetProximity ≤ covered := by
  rw [nearTarget_eq hmark, targetEvidence]
  cases observation.metrics.targetDistancePercent with
  | none => simp
  | some distance =>
      cases observation.position.targetPrice with
      | none => simp
      | some target => simp [targetRow, Option.any_eq_true]

/-- The stop comes before the target. -/
theorem positionBrain_state (hmark : observation.position.markPrice = some mark) :
    (positionBrain observation).state =
      if observation.metrics.remainingR.any fun remaining => remaining ≤ stopProximityR then .adverse
      else if nearTarget observation then .weakening
      else .neutral := by
  rw [nearTarget_eq hmark, positionBrain, PositionObservation.mark, hmark]
  rfl

theorem positionBrain_unmarked (hmark : observation.position.markPrice = none) :
    (positionBrain observation).state = .unavailable ∧ nearTarget observation = false := by
  rw [nearTarget, positionBrain, PositionObservation.mark, hmark]
  exact ⟨rfl, rfl⟩

/-- How much of the way from the entry to the target is behind the mark; less than nothing on the other side. -/
def progress (position : PaperPosition) (mark target : Decimal) : Decimal :=
  (mark - position.entryPrice) / (target - position.entryPrice)

/-- Target advice is for positions on the way to their targets. -/
structure TargetAdvice (observation : PositionObservation) (mark target : Decimal) : Prop where
  row : (∃ row ∈ (positionBrain observation).evidence, row.name = "target_proximity" ∧ row.satisfied = some true) ↔
    targetProximity ≤ progress observation.position mark target
  trail : (evaluatePosition observation).decision = .trail ∨ (evaluatePosition observation).thesisState = .targetApproaching →
    targetProximity ≤ progress observation.position mark target

theorem travelled_iff (entry mark target : Decimal) :
    (∃ covered, travelled entry mark target = some covered ∧ targetProximity ≤ covered) ↔
      targetProximity ≤ |(mark - entry) / (target - entry)| := by
  rw [travelled, abs_div]
  by_cases hspan : 0 < |target - entry|
  · rw [if_pos hspan]
    simp
  · rw [if_neg hspan, le_antisymm (not_lt.mp hspan) (abs_nonneg _), div_zero]
    have hpos : (0 : Decimal) < targetProximity := by norm_num [targetProximity]
    refine iff_of_false ?_ (not_le.mpr hpos)
    rintro ⟨_, hcovered, _⟩
    cases hcovered

theorem targetDistance_of_mark (position : PaperPosition) (now : Timestamp) (fee : Decimal)
    (hmark : position.markPrice = some mark) (hpos : 0 < mark) (htarget : position.targetPrice = some target) :
    ∃ distance, (computePositionMetrics position now fee).targetDistancePercent = some distance := by
  simp [computePositionMetrics, hmark, htarget, pct, not_le.mpr hpos]

theorem nearTarget_iff_abs (hmetrics : observation.metrics = computePositionMetrics observation.position observation.now fee)
    (hmark : observation.position.markPrice = some mark) (hpos : 0 < mark)
    (htarget : observation.position.targetPrice = some target) :
    nearTarget observation ↔ targetProximity ≤ |progress observation.position mark target| := by
  obtain ⟨distance, hdistance⟩ := targetDistance_of_mark observation.position observation.now fee hmark hpos htarget
  rw [← hmetrics] at hdistance
  rw [nearTarget_iff hmark, progress, ← travelled_iff, hdistance, htarget]
  constructor
  · rintro ⟨_, _, covered, -, hsame, hcovered⟩
    obtain rfl := Option.some.inj hsame
    exact ⟨covered, hcovered⟩
  · rintro ⟨covered, hcovered⟩
    exact ⟨distance, target, covered, rfl, rfl, hcovered⟩

/-- The distance is taken without its sign: the advice is right unless the mark has gone as far against the entry. -/
theorem targetAdvice_iff (hmetrics : observation.metrics = computePositionMetrics observation.position observation.now fee)
    (hmark : observation.position.markPrice = some mark) (hpos : 0 < mark)
    (htarget : observation.position.targetPrice = some target) :
    TargetAdvice observation mark target ↔ ¬ progress observation.position mark target ≤ -targetProximity := by
  have hnear := nearTarget_iff_abs hmetrics hmark hpos htarget
  rw [le_abs'] at hnear
  have hrow : nearTarget observation ↔
      ∃ row ∈ (positionBrain observation).evidence, row.name = "target_proximity" ∧ row.satisfied = some true := by
    rw [nearTarget, List.any_eq_true]
    simp only [decide_eq_true_eq]
  have hfraction : (0 : Decimal) < targetProximity := by norm_num [targetProximity]
  constructor
  · intro hadvice hagainst
    have htowards := hadvice.row.mp (hrow.mp (hnear.mpr (.inl hagainst)))
    linarith
  · intro hagainst
    have hiff : nearTarget observation ↔ targetProximity ≤ progress observation.position mark target :=
      hnear.trans (or_iff_right hagainst)
    refine ⟨hrow.symm.trans hiff, fun htrail => hiff.mp ?_⟩
    have hadvice : (advice observation).1 = .trail ∨ (advice observation).2 = .targetApproaching := htrail
    rw [advice_eq] at hadvice
    exact near_of_trail hadvice

end Levels

section Target

/-- A long position on its way down: the market has climbed, and its mark stands below the entry. -/
def exampleFallen : PositionObservation :=
  observe exampleAccount
    { examplePosition with
      markPrice := some 1045, markSource := some "binance", markStatus := some "OK", stopPrice := none, targetPrice := some 1065 }
    56 5 (exampleKlines exampleClimb) 0

/-- A position that has gone as far against its entry as its target is away is advised to trail. -/
theorem fallen_trails :
    (evaluatePosition exampleFallen).decision = .trail ∧ (technicalBrain exampleFallen).state = .supportive ∧
      ¬ TargetAdvice exampleFallen 1045 1065 := by
  have htrail : (evaluatePosition exampleFallen).decision = .trail := by decide +kernel
  refine ⟨htrail, by decide +kernel, fun hadvice => ?_⟩
  have hcovered := hadvice.trail (.inl htrail)
  exact absurd hcovered (by decide +kernel)

/-- On its way up, at the same distance, it is on its way to the target. -/
theorem targetAdvice_climbing :
    TargetAdvice { exampleFallen with
      position := { exampleFallen.position with markPrice := some 1064 }
      metrics := computePositionMetrics { exampleFallen.position with markPrice := some 1064 } 56 5 } 1064 1065 :=
  (targetAdvice_iff rfl rfl (by decide) rfl).mpr (by decide +kernel)

end Target

section Exit

variable {observation : PositionObservation} {position : PaperPosition} {mark stop fee : Decimal}

/-- The mark is at the stop or beyond it. -/
def passed (position : PaperPosition) (mark stop : Decimal) : Prop :=
  if position.side = .long then mark ≤ stop else stop ≤ mark

instance (position : PaperPosition) (mark stop : Decimal) : Decidable (passed position mark stop) :=
  inferInstanceAs (Decidable (if position.side = .long then mark ≤ stop else stop ≤ mark))

def StopPassed (position : PaperPosition) : Prop :=
  ∃ mark stop, position.markPrice = some mark ∧ position.stopPrice = some stop ∧ passed position mark stop

/-- The exit brain's row on the levels reads that they are violated. -/
def LevelsViolated (observation : PositionObservation) : Prop :=
  ∃ row ∈ (consulted observation).exit.evidence, row.name = "position_levels" ∧ row.observed = some "violated"

/-- Exits are for broken theses that a second reading or the price itself confirms. -/
structure ExitAdvice (observation : PositionObservation) : Prop where
  exit : (evaluatePosition observation).decision = .exit ↔
    ¬ observation.riskLock.blocksEntries ∧ observation.unreconciledOrders = 0 ∧ (marketBrain observation).usable ∧
      (technicalBrain observation).state = .adverse ∧
      ((regimeBrain observation).state = .adverse ∨ (momentumVolumeBrain observation).state = .adverse ∨
        StopPassed observation.position)
  row : LevelsViolated observation ↔ StopPassed observation.position

theorem levelsViolated_iff : LevelsViolated observation ↔ (positionBrain observation).state = .adverse := by
  simp [LevelsViolated, consulted, exitBrain, byName, isAdverse]

theorem exitAdvice_iff_row : ExitAdvice observation ↔
    ((positionBrain observation).state = .adverse ↔ StopPassed observation.position) := by
  constructor
  · exact fun hadvice => levelsViolated_iff.symm.trans hadvice.row
  · intro hadverse
    refine ⟨?_, levelsViolated_iff.trans hadverse⟩
    rw [decision_exit_iff, hadverse, blocked, decide_eq_false_iff_not, not_or, Nat.not_lt, Nat.le_zero, and_assoc]

/-- Ranges of rounded figures: four places, ties to even. -/
theorem fourPlaces_le_iff (x : Decimal) : fourPlaces x ≤ stopProximityR ↔ x ≤ 25005 / 100000 := by
  have heven : FixedPoint.halfEven (x * 10000) ≤ 2500 ↔ x * 10000 ≤ (2500 : ℤ) + 1 / 2 :=
    FixedPoint.halfEven_le_iff_of_even (by decide)
  have hcast : fourPlaces x ≤ stopProximityR ↔ FixedPoint.halfEven (x * 10000) ≤ 2500 := by
    rw [fourPlaces, stopProximityR, div_le_div_iff₀ (by norm_num) (by norm_num)]
    constructor
    · intro h
      have h : (FixedPoint.halfEven (x * 10000) : Decimal) ≤ (2500 : ℤ) := by
        push_cast
        linarith
      exact_mod_cast h
    · intro h
      have h : (FixedPoint.halfEven (x * 10000) : Decimal) ≤ (2500 : ℤ) := by exact_mod_cast h
      push_cast at h
      linarith
  rw [hcast, heven]
  push_cast
  constructor <;> intro h <;> linarith

/-- The risk that was planned at entry, if there was any. -/
def plannedRisk (position : PaperPosition) : Option Decimal :=
  (position.thesis.bind PositionThesis.plannedRiskPerUnit).filter fun planned => 0 < planned

theorem passed_iff : passed position mark stop ↔ ahead (position.side = .long) mark stop ≤ 0 := by
  rw [passed, ahead]
  by_cases hside : position.side = .long
  · simp [hside]
  · simp [hside]

/-- The position brain is adverse where less than a quarter of the planned risk is left. -/
theorem positionBrain_adverse_iff
    (hmetrics : observation.metrics = computePositionMetrics observation.position observation.now fee) :
    (positionBrain observation).state = .adverse ↔ ∃ mark stop planned, observation.position.markPrice = some mark ∧
      observation.position.stopPrice = some stop ∧ plannedRisk observation.position = some planned ∧
      ahead (observation.position.side = .long) mark stop / planned ≤ 25005 / 100000 := by
  have hremaining : observation.metrics.remainingR = observation.position.markPrice.bind fun mark =>
      observation.position.stopPrice.bind fun stop => (plannedRisk observation.position).bind fun planned =>
        some (fourPlaces (ahead (observation.position.side = .long) mark stop / planned)) := by
    rw [hmetrics]
    rfl
  cases hmark : observation.position.markPrice with
  | none =>
      rw [(positionBrain_unmarked hmark).1]
      simp
  | some mark =>
      have hstate {near far : Bool} :
          (if near then BrainState.adverse else if far then .weakening else .neutral) = .adverse ↔ near := by
        cases near <;> cases far <;> decide
      rw [positionBrain_state hmark, hstate, hremaining, hmark]
      cases observation.position.stopPrice with
      | none => simp
      | some stop =>
          cases plannedRisk observation.position with
          | none => simp
          | some planned => simp [fourPlaces_le_iff]

/-- The levels are told rightly where the price alone tells them: a stop that is passed needs a planned risk to be seen,
and one that is not has to be more than a quarter of it away. -/
structure StopTold (position : PaperPosition) (mark stop : Decimal) : Prop where
  seen : passed position mark stop → (plannedRisk position).isSome
  clear : ¬ passed position mark stop →
    ∀ planned ∈ plannedRisk position, 25005 / 100000 * planned < ahead (position.side = .long) mark stop

theorem ratio_le_iff {planned : Decimal} (hplanned : planned ∈ plannedRisk position) (gap : Decimal) :
    gap / planned ≤ 25005 / 100000 ↔ gap ≤ 25005 / 100000 * planned := by
  have hpos : 0 < planned := by simpa using (Option.filter_eq_some_iff.mp hplanned).2
  exact div_le_iff₀ hpos

/-- The exit brain takes a stop that is near for one that is passed, and sees no stop without a planned risk. -/
theorem exitAdvice_iff
    (hmetrics : observation.metrics = computePositionMetrics observation.position observation.now fee) :
    ExitAdvice observation ↔ ∀ mark ∈ observation.position.markPrice, ∀ stop ∈ observation.position.stopPrice,
      StopTold observation.position mark stop := by
  rw [exitAdvice_iff_row, positionBrain_adverse_iff hmetrics, StopPassed]
  constructor
  · intro hiff mark hmark stop hstop
    refine ⟨fun hpassed => ?_, fun hpassed planned hplanned => ?_⟩
    · obtain ⟨_, _, planned, -, -, hplanned, -⟩ := hiff.mpr ⟨mark, stop, hmark, hstop, hpassed⟩
      rw [hplanned]
      rfl
    · by_contra hnear
      have hratio := (ratio_le_iff hplanned _).mpr (not_lt.mp hnear)
      obtain ⟨mark', stop', hmark', hstop', hpassed'⟩ := hiff.mp ⟨mark, stop, planned, hmark, hstop, hplanned, hratio⟩
      obtain rfl := Option.some.inj (hmark.symm.trans hmark')
      obtain rfl := Option.some.inj (hstop.symm.trans hstop')
      exact hpassed hpassed'
  · intro htold
    constructor
    · rintro ⟨mark, stop, planned, hmark, hstop, hplanned, hratio⟩
      refine ⟨mark, stop, hmark, hstop, ?_⟩
      by_contra hpassed
      have hclear := (htold mark hmark stop hstop).clear hpassed planned hplanned
      exact absurd ((ratio_le_iff hplanned _).mp hratio) (not_le.mpr hclear)
    · rintro ⟨mark, stop, hmark, hstop, hpassed⟩
      obtain ⟨planned, hplanned⟩ := Option.isSome_iff_exists.mp ((htold mark hmark stop hstop).seen hpassed)
      refine ⟨mark, stop, planned, hmark, hstop, hplanned, (ratio_le_iff hplanned _).mpr ?_⟩
      have hpos : 0 < planned := by simpa using (Option.filter_eq_some_iff.mp hplanned).2
      calc ahead (observation.position.side = .long) mark stop ≤ 0 := passed_iff.mp hpassed
        _ ≤ 25005 / 100000 * planned := mul_nonneg (by norm_num) hpos.le

/-- A long position whose mark is above its stop, a twentieth of the planned risk away. -/
def exampleNear : PositionObservation :=
  observe exampleAccount
    { examplePosition with markPrice := some 1035, markSource := some "binance", markStatus := some "OK" }
    56 5 (exampleKlines exampleClimb) 0

theorem exampleStop : exampleNear.position.stopPrice = some (10339 / 10) := by decide +kernel

/-- The stop reads violated before it is reached. -/
theorem near_reads_violated : LevelsViolated exampleNear ∧ ¬ StopPassed exampleNear.position ∧ ¬ ExitAdvice exampleNear := by
  have hadverse : (positionBrain exampleNear).state = .adverse := by decide +kernel
  have hclear : ¬ StopPassed exampleNear.position := by
    rintro ⟨mark, stop, hmark, hstop, hpassed⟩
    obtain rfl := Option.some.inj hmark
    obtain rfl := Option.some.inj (exampleStop.symm.trans hstop)
    exact absurd hpassed (by decide +kernel)
  exact ⟨levelsViolated_iff.mpr hadverse, hclear, fun hadvice => hclear ((exitAdvice_iff_row.mp hadvice).mp hadverse)⟩

/-- A mark that is far from the stop. -/
theorem exitAdvice_far : ExitAdvice { exampleNear with
    position := { exampleNear.position with markPrice := some 1050 }
    metrics := computePositionMetrics { exampleNear.position with markPrice := some 1050 } 56 5 } := by
  refine (exitAdvice_iff rfl).mpr fun mark hmark stop hstop => ?_
  obtain rfl := Option.some.inj hmark
  obtain rfl := Option.some.inj (exampleStop.symm.trans hstop)
  refine ⟨fun hpassed => absurd hpassed (by decide +kernel), fun _ planned hplanned => ?_⟩
  have hrisk : plannedRisk { exampleNear.position with markPrice := some 1050 } = some (211 / 10) := by decide +kernel
  obtain rfl := Option.some.inj (hrisk.symm.trans hplanned)
  decide +kernel

end Exit

end Aetheris.Advice
