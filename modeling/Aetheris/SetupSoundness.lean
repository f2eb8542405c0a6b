import Mathlib.Data.List.DropRight
import Aetheris.BiasSymmetry
import Aetheris.Setup

namespace Aetheris.Setup

open Lib Money Clock PaperRecords Autonomous Indicators TrendMomentum Regime

section Levels

variable {candles : List Candle} {direction : SetupDirection} {params : SetupParams} {atrPercent : Option Decimal}
  {levels : RiskReward} {lookback : Nat} {level : Decimal}

theorem of_guard {α : Type} {P : Prop} [Decidable P] {rest : Option α} {a : α}
    (h : (guard P >>= fun _ => rest) = some a) : P ∧ rest = some a := by
  by_cases hp : P
  · rw [guard, if_pos hp] at h
    exact ⟨hp, h⟩
  · rw [guard, if_neg hp] at h
    cases h

/-- The bars before the last one, as many as are looked back over. -/
theorem trailing_eq (candles : List Candle) (bars : Nat) : trailing candles bars = candles.dropLast.rtake bars := by
  rw [trailing, List.rtake, List.length_dropLast]

/-- The swing extreme on the side where a setup of the direction is wrong. -/
def Extreme (window : List Candle) (direction : SetupDirection) (level : Decimal) : Prop :=
  if direction = .long then (∃ bar ∈ window, bar.low = level) ∧ ∀ bar ∈ window, level ≤ bar.low
  else (∃ bar ∈ window, bar.high = level) ∧ ∀ bar ∈ window, bar.high ≤ level

theorem extreme_of_structureLevel (h : structureLevel candles lookback direction = some level) :
    Extreme (candles.dropLast.rtake lookback) direction level := by
  rw [structureLevel, trailing_eq] at h
  rw [Extreme]
  split at h
  · rw [if_pos ‹_›]
    obtain ⟨hmem, hleast⟩ := List.min?_eq_some_iff.mp h
    exact ⟨List.mem_map.mp hmem, fun bar hbar => hleast _ (List.mem_map_of_mem hbar)⟩
  · rw [if_neg ‹_›]
    obtain ⟨hmem, hgreatest⟩ := List.max?_eq_some_iff.mp h
    exact ⟨List.mem_map.mp hmem, fun bar hbar => hgreatest _ (List.mem_map_of_mem hbar)⟩

theorem stopLevel_structural {entry : Decimal} (h : params.stopModel = .structural) :
    stopLevel candles entry direction params atrPercent = structureLevel candles params.structureLookback direction := by
  unfold stopLevel
  rw [h]

/-- Levels that a direction may be acted on: on their sides of the last close, in the ratio that is asked for. -/
structure SoundLevels (candles : List Candle) (direction : SetupDirection) (params : SetupParams) (levels : RiskReward) :
    Prop where
  entry : candles.getLast?.map Candle.close = some levels.entryPrice
  long : direction = .long →
    0 < levels.stopPrice ∧ levels.stopPrice < levels.entryPrice ∧ levels.entryPrice < levels.takeProfitPrice
  short : direction = .short →
    0 < levels.takeProfitPrice ∧ levels.takeProfitPrice < levels.entryPrice ∧ levels.entryPrice < levels.stopPrice
  risk : levels.riskPerUnit = |levels.entryPrice - levels.stopPrice|
  reward : levels.rewardPerUnit = params.takeProfitR * levels.riskPerUnit
  target : |levels.takeProfitPrice - levels.entryPrice| = levels.rewardPerUnit
  structural : params.stopModel = .structural →
    Extreme (candles.dropLast.rtake params.structureLookback) direction levels.stopPrice

theorem soundLevels_of_derived (h : deriveRiskReward candles direction params atrPercent = some levels) :
    direction ≠ .noSignal ∧ SoundLevels candles direction params levels := by
  obtain ⟨hsignal, h⟩ := of_guard h
  obtain ⟨last, hlast, h⟩ := Option.bind_eq_some_iff.mp h
  obtain ⟨hentry, h⟩ := of_guard h
  obtain ⟨stop, hstop, h⟩ := Option.bind_eq_some_iff.mp h
  obtain ⟨hpos, h⟩ := of_guard h
  obtain ⟨hlong, h⟩ := of_guard h
  obtain ⟨hshort, h⟩ := of_guard h
  obtain ⟨hrisk, h⟩ := of_guard h
  obtain ⟨htarget, h⟩ := of_guard h
  obtain rfl := Option.some.inj h
  have hreward : 0 < |last.close - stop| * params.takeProfitR := mul_pos hrisk params.takeProfitR_bounds.1
  refine ⟨hsignal, ?_, ?_, ?_, rfl, mul_comm _ _, ?_, ?_⟩
  · rw [hlast]
    rfl
  · rintro rfl
    refine ⟨hpos, not_le.mp fun hle => hlong ⟨rfl, hle⟩, ?_⟩
    exact lt_add_of_pos_right _ hreward
  · rintro rfl
    refine ⟨htarget, ?_, not_le.mp fun hle => hshort ⟨rfl, hle⟩⟩
    exact sub_lt_self _ hreward
  · dsimp only
    split
    · rw [add_sub_cancel_left, abs_of_pos hreward]
    · rw [sub_sub_cancel_left, abs_neg, abs_of_pos hreward]
  · intro hmodel
    rw [stopLevel_structural hmodel] at hstop
    exact extreme_of_structureLevel hstop

end Levels

section Score

variable {conditions : List ConditionOutcome} {regime : RegimeAssessment} {direction : SetupDirection}
  {levels : RiskReward} {atrPercent ratio : Option Decimal} {parts : List SetupScoreComponent}

theorem clampUnit_mem (value : Decimal) : 0 ≤ clampUnit value ∧ clampUnit value ≤ 1 := by
  rw [clampUnit]
  split
  · exact ⟨le_refl 0, zero_le_one⟩
  · split
    · exact ⟨zero_le_one, le_refl 1⟩
    · exact ⟨not_lt.mp ‹¬ value < 0›, not_lt.mp ‹_›⟩

/-- A component takes no more of the score than its weight, in whole cents. -/
structure SoundComponent (part : SetupScoreComponent) : Prop where
  normalized : 0 ≤ part.normalized ∧ part.normalized ≤ 1
  contribution : 0 ≤ part.contribution ∧ part.contribution ≤ part.weight * 100
  cents : FixedPoint.Grid 100 part.contribution

theorem soundComponent {name detail : String} {weight normalized : Decimal} {raw : Option Decimal} (hweight : 0 ≤ weight)
    (hcents : FixedPoint.Grid 100 (weight * 100)) : SoundComponent (component name weight normalized raw detail) := by
  have hunit : (0 : Decimal) < 100 := by norm_num
  obtain ⟨hnonneg, hle⟩ := clampUnit_mem normalized
  have hfull : 0 ≤ weight * 100 := mul_nonneg hweight hunit.le
  have hpart : clampUnit normalized * weight * 100 ≤ weight * 100 := by
    rw [mul_assoc]
    exact mul_le_of_le_one_left hfull hle
  refine ⟨⟨hnonneg, hle⟩, ⟨?_, ?_⟩, FixedPoint.grid_halfUp _ _⟩
  · exact FixedPoint.halfUp_nonneg hunit (mul_nonneg (mul_nonneg hnonneg hweight) hunit.le)
  · calc roundCent (clampUnit normalized * weight * 100) ≤ roundCent (weight * 100) := FixedPoint.halfUp_mono hunit hpart
      _ = weight * 100 := FixedPoint.halfUp_of_grid hunit hcents

theorem contributions_le (h : ∀ part ∈ parts, SoundComponent part) :
    0 ≤ (parts.map SetupScoreComponent.contribution).sum ∧
      (parts.map SetupScoreComponent.contribution).sum ≤ (parts.map SetupScoreComponent.weight).sum * 100 := by
  induction parts with
  | nil => exact ⟨le_refl 0, by rw [List.map_nil, List.map_nil, List.sum_nil, zero_mul]⟩
  | cons part parts ih =>
      obtain ⟨hnonneg, hle⟩ := ih fun other hother => h other (List.mem_cons_of_mem _ hother)
      obtain ⟨hpart, hpartLe⟩ := (h part List.mem_cons_self).contribution
      simp only [List.map_cons, List.sum_cons]
      rw [add_mul]
      exact ⟨add_nonneg hpart hnonneg, add_le_add hpartLe hle⟩

variable (conditions regime direction levels atrPercent ratio)

theorem score_components : ∀ part ∈ (score conditions regime direction levels atrPercent ratio).components,
    SoundComponent part := by
  have hcents (n : ℕ) : FixedPoint.Grid (100 : Decimal) ((n : Decimal) / 100 * 100) := by
    refine ⟨n * 100, ?_⟩
    push_cast
    ring
  intro part hpart
  unfold score at hpart
  simp only [List.mem_cons, List.not_mem_nil, or_false] at hpart
  rcases hpart with rfl | rfl | rfl | rfl | rfl | rfl
  · exact soundComponent (by norm_num) (hcents 25)
  · exact soundComponent (by norm_num) (hcents 20)
  · exact soundComponent (by norm_num) (hcents 20)
  · exact soundComponent (by norm_num) (hcents 20)
  · exact soundComponent (by norm_num) (hcents 10)
  · exact soundComponent (by norm_num) (hcents 5)

theorem score_weights :
    ((score conditions regime direction levels atrPercent ratio).components.map SetupScoreComponent.weight).sum = 1 := by
  unfold score
  simp only [List.map_cons, List.map_nil, List.sum_cons, List.sum_nil, component]
  norm_num

/-- Rounding does nothing to a sum of whole cents. -/
theorem score_value : (score conditions regime direction levels atrPercent ratio).value =
    ((score conditions regime direction levels atrPercent ratio).components.map SetupScoreComponent.contribution).sum := by
  refine FixedPoint.halfUp_of_grid (by norm_num) (FixedPoint.grid_sum fun contribution hcontribution => ?_)
  obtain ⟨part, hpart, rfl⟩ := List.mem_map.mp hcontribution
  exact (score_components conditions regime direction levels atrPercent ratio part hpart).cents

theorem score_bounds : 0 ≤ (score conditions regime direction levels atrPercent ratio).value ∧
    (score conditions regime direction levels atrPercent ratio).value ≤ 100 := by
  have hbounds := contributions_le (score_components conditions regime direction levels atrPercent ratio)
  rwa [score_weights, one_mul, ← score_value] at hbounds

end Score

section Building

variable {candles : List Candle} {context : DataContext} {now : Timestamp} {params : TrendMomentumParams}
  {setupParams : SetupParams} {regime : RegimeAssessment} {direction : SetupDirection}
  {conditions opposing : List ConditionOutcome} {values : IndicatorValues}

/-- The conditions of a direction, as the rules found them. -/
def conditionsOf (values : IndicatorValues) (params : TrendMomentumParams) (direction : SetupDirection) :
    List ConditionOutcome :=
  if direction = .long then (evaluateConditions values params).1 else (evaluateConditions values params).2.1

/-- What an actionable setup stands for. -/
structure Sound (candles : List Candle) (params : TrendMomentumParams) (setupParams : SetupParams) (setup : TradeSetup) :
    Prop where
  direction : setup.direction ≠ .noSignal
  conditions : ∃ values, computeIndicatorValues candles params = some values ∧
    setup.conditions = conditionsOf values params setup.direction
  satisfied : setup.conditions.length = 4 ∧ ∀ condition ∈ setup.conditions, condition.satisfied
  levels : ∃ levels, setup.riskReward = some levels ∧ SoundLevels candles setup.direction setupParams levels
  score : ∃ found, setup.score = some found ∧
    found.value = (found.components.map SetupScoreComponent.contribution).sum ∧ 0 ≤ found.value ∧ found.value ≤ 100 ∧
    ∀ part ∈ found.components, 0 ≤ part.normalized ∧ part.normalized ≤ 1

/-- Neither levels nor a score. -/
def Bare (setup : TradeSetup) : Prop := setup.riskReward = none ∧ setup.score = none

theorem directed_sound (hvalues : computeIndicatorValues candles params = some values)
    (hconditions : conditions = conditionsOf values params direction)
    (hsatisfied : conditions.length = 4 ∧ ∀ condition ∈ conditions, condition.satisfied) :
    ((directed candles context now setupParams regime direction conditions opposing).status = .actionable →
      Sound candles params setupParams (directed candles context now setupParams regime direction conditions opposing)) ∧
    ((directed candles context now setupParams regime direction conditions opposing).status ≠ .actionable →
      Bare (directed candles context now setupParams regime direction conditions opposing)) := by
  rw [directed]
  dsimp only
  cases hlevels : deriveRiskReward candles direction setupParams (atrPercentOf regime) with
  | none => exact ⟨fun h => SetupStatus.noConfusion h, fun _ => ⟨rfl, rfl⟩⟩
  | some levels =>
      obtain ⟨hdirection, hsound⟩ := soundLevels_of_derived hlevels
      refine ⟨fun _ => ?_, fun h => absurd rfl h⟩
      exact ⟨hdirection, ⟨values, hvalues, hconditions⟩, hsatisfied, ⟨levels, rfl, hsound⟩, _, rfl,
        score_value _ _ _ _ _ _, (score_bounds _ _ _ _ _ _).1, (score_bounds _ _ _ _ _ _).2,
        fun part hpart => (score_components _ _ _ _ _ _ part hpart).normalized⟩

end Building

end Aetheris.Setup
