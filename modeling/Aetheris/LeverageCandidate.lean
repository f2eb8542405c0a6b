import Aetheris.BiasSeries
import Aetheris.IndicatorStart
import Aetheris.Leverage
import Aetheris.Regime

namespace Aetheris.LeverageCandidate

open Lib Money Leverage Indicators TrendMomentum
open Autonomous (StrategyBias)
open PaperRecords (ConditionOutcome)
open Backtest (latest_buildResult computeIndicatorValues_of_length valueAt_of_figuresAt)

section Candidates

/-- The adverse move that a candidate is sized by: a reference scale, no stop and no budget. -/
def targetAdverseMovePercent : Decimal := 2

def clamped (candidate : Decimal) : Decimal := max leverageMin (min candidate leverageMax)

theorem clamped_min (candidate : Decimal) : leverageMin ≤ clamped candidate := le_max_left _ _

theorem clamped_max (candidate : Decimal) : clamped candidate ≤ leverageMax :=
  max_le (by norm_num [leverageMin, leverageMax]) (min_le_right _ _)

/-- What the volatility asks for, scaled by the share of the conditions that hold. -/
def raw (atrPercent : Decimal) (conditionsMet conditionsTotal : Int) : Decimal :=
  targetAdverseMovePercent / atrPercent * (conditionsMet / conditionsTotal)

/-- A candidate from the measured volatility, or none where an input cannot be used. -/
def proposeLeverage (atrPercent : Decimal) (conditionsMet conditionsTotal : Int) : Option LeverageRequest :=
  if atrPercent ≤ 0 then none
  else if conditionsTotal ≤ 0 then none
  else if conditionsMet < 0 ∨ conditionsTotal < conditionsMet then none
  else
    let agreement : Decimal := conditionsMet / conditionsTotal
    if agreement ≤ 0 then none
    else
      let target := str targetAdverseMovePercent
      let shownAtr := fixed 4 atrPercent
      let low := str leverageMin
      let high := str leverageMax
      let rawCandidate := raw atrPercent conditionsMet conditionsTotal
      some
        { requestedLeverage := clamped (truncDiv rawCandidate 1)
          basis := "ATR volatility + deterministic strategy-condition agreement -> leverage " ++
            s!"candidate: a {target}% reference adverse move divided " ++
            s!"by an ATR of {shownAtr}% of price, scaled by " ++
            s!"{conditionsMet}/{conditionsTotal} condition agreement, then clamped to " ++
            s!"{low}-{high}x. This is a candidate request for the risk " ++
            "engine to rule on — not an authorisation, not an AI confidence, and not a " ++
            "probability of anything."
          inputs := [("atr_percent", atrPercent), ("target_adverse_move_percent", targetAdverseMovePercent),
            ("agreement", agreement), ("raw_candidate", rawCandidate)]
          requested_min := clamped_min _
          requested_max := clamped_max _ }

/-- ATR as a percent of the last close, for the candidate only. -/
def measureAtrPercent (candles : List Candle) (params : TrendMomentumParams) : Option Decimal :=
  match candles.getLast? with
  | none => none
  | some last =>
      match latest (buildResult (Regime.atrSpec params.adxPeriod) candles (requiredIndicatorParams params).1) "atr" with
      | none => none
      | some atrValue => if last.close ≤ 0 then none else some (atrValue / last.close * 100)

/-- The leverage that an evaluation of the strategy reports. -/
inductive StrategyLeverage
  | noDirectionalBias (detail : String)
  | resolved (decision : LeverageDecision)

def StrategyLeverage.isUsable : StrategyLeverage → Bool
  | noDirectionalBias _ => false
  | resolved decision => decision.isUsable

def StrategyLeverage.approvedLeverage : StrategyLeverage → Option Decimal
  | noDirectionalBias _ => none
  | resolved decision => decision.approvedLeverage

/-- Neither the ceiling of the venue nor that of the risk engine is known to the analysis. -/
def leverageDecision (candles : List Candle) (params : TrendMomentumParams) (bias : StrategyBias)
    (conditionsMet : Int) : StrategyLeverage :=
  if bias = .neutral then
    .noDirectionalBias ("No directional bias, so no leverage is requested. Leverage is only " ++
      "ever a question once a direction is identified.")
  else
    .resolved (resolveLeverage ((measureAtrPercent candles params).bind fun atrPercent =>
      proposeLeverage atrPercent conditionsMet 4) none none false)

def met (conditions : List ConditionOutcome) : Nat := (conditions.filter ConditionOutcome.satisfied).length

/-- The leverage column of an evaluation over prepared candles; an evaluation without figures has none. -/
def strategyLeverage (candles : List Candle) (params : TrendMomentumParams) : Option StrategyLeverage :=
  (computeIndicatorValues candles params).map fun values =>
    let (longConditions, shortConditions, bias) := evaluateConditions values params
    leverageDecision candles params bias (max (met longConditions) (met shortConditions) : Nat)

end Candidates

section Falling

variable {atrPercent atrPercent' : Decimal} {met met' total : Int} {request request' : LeverageRequest}

/-- When there is a candidate, and which. -/
theorem mem_proposeLeverage : request ∈ proposeLeverage atrPercent met total →
    0 < atrPercent ∧ 0 < total ∧ 0 < met ∧ met ≤ total ∧
      request.requestedLeverage = clamped (truncDiv (raw atrPercent met total) 1) := by
  intro h
  rw [proposeLeverage] at h
  split at h
  · cases h
  · split at h
    · cases h
    · split at h
      · cases h
      · rename_i hatr htotal hmet
        dsimp only at h
        split at h
        · cases h
        · rename_i hagreement
          obtain rfl := Option.some.inj h
          have htotal : 0 < total := not_le.mp htotal
          have hpos : (0 : Decimal) < total := Int.cast_pos.mpr htotal
          have hshare : (0 : Decimal) < met := by
            by_contra hmet
            exact hagreement (div_nonpos_of_nonpos_of_nonneg (not_lt.mp hmet) hpos.le)
          exact ⟨not_le.mp hatr, htotal, Int.cast_pos.mp hshare, by omega, rfl⟩

theorem truncDiv_mono {x y : Decimal} (hx : 0 ≤ x) (h : x ≤ y) : truncDiv x 1 ≤ truncDiv y 1 := by
  rw [truncDiv, truncDiv, div_one, div_one, if_pos hx, if_pos (hx.trans h)]
  exact Int.floor_mono h

theorem clamped_mono {x y : Decimal} (h : x ≤ y) : clamped x ≤ clamped y :=
  max_le_max_left leverageMin (min_le_min_right leverageMax h)

theorem raw_pos (hatr : 0 < atrPercent) (hmet : 0 < met) (htotal : 0 < total) : 0 < raw atrPercent met total := by
  have hshare : (0 : Decimal) < met / total := div_pos (Int.cast_pos.mpr hmet) (Int.cast_pos.mpr htotal)
  exact mul_pos (div_pos (by norm_num [targetAdverseMovePercent]) hatr) hshare

theorem raw_mono (hatr : 0 < atrPercent) (hle : atrPercent ≤ atrPercent') (hmet' : 0 < met') (hmet : met' ≤ met)
    (htotal : 0 < total) : raw atrPercent' met' total ≤ raw atrPercent met total := by
  have hmoves : targetAdverseMovePercent / atrPercent' ≤ targetAdverseMovePercent / atrPercent :=
    div_le_div_of_nonneg_left (by norm_num [targetAdverseMovePercent]) hatr hle
  have hshares : (met' : Decimal) / total ≤ met / total :=
    div_le_div_of_nonneg_right (Int.cast_le.mpr hmet) (Int.cast_pos.mpr htotal).le
  have hshare' : (0 : Decimal) ≤ met' / total :=
    div_nonneg (Int.cast_pos.mpr hmet').le (Int.cast_pos.mpr htotal).le
  have hmove : (0 : Decimal) ≤ targetAdverseMovePercent / atrPercent :=
    div_nonneg (by norm_num [targetAdverseMovePercent]) hatr.le
  exact mul_le_mul hmoves hshares hshare' hmove

/-- More volatility, or fewer of the conditions, never ask for more. -/
theorem requested_le (hle : atrPercent ≤ atrPercent') (hmet : met' ≤ met)
    (h : request ∈ proposeLeverage atrPercent met total) (h' : request' ∈ proposeLeverage atrPercent' met' total) :
    request'.requestedLeverage ≤ request.requestedLeverage := by
  obtain ⟨hatr, htotal, _, _, heq⟩ := mem_proposeLeverage h
  obtain ⟨hatr', _, hmet', _, heq'⟩ := mem_proposeLeverage h'
  rw [heq, heq']
  refine clamped_mono (Int.cast_le.mpr ?_)
  exact truncDiv_mono (raw_pos hatr' hmet' htotal).le (raw_mono hatr hle hmet' hmet htotal)

end Falling

section Chain

variable {atrPercent atrPercent' : Decimal} {met met' total : Int} {request request' : LeverageRequest}
  {exchangeMax riskMax : Option Decimal} {available : Bool} {l l' : Decimal}

theorem approved_le (hrequested : request'.requestedLeverage ≤ request.requestedLeverage)
    (h : l ∈ (resolveLeverage (some request) exchangeMax riskMax available).approvedLeverage)
    (h' : l' ∈ (resolveLeverage (some request') exchangeMax riskMax available).approvedLeverage) : l' ≤ l := by
  have hmin := (resolveLeverage_approved h).min
  have hasked' := (resolveLeverage_approved h').requested
  rcases resolveLeverage_least h with ⟨rfl, hasked, -⟩ | ⟨exchange, risk, rfl, rfl, -, -, rfl⟩
  · exact hasked ▸ hasked'.trans hrequested
  · rcases resolveLeverage_least h' with ⟨rfl, -⟩ | ⟨_, _, hexchange, hrisk, -, -, rfl⟩
    · exact hmin
    · cases hexchange
      cases hrisk
      exact min_le_min_right risk (min_le_min_right exchange hrequested)

/-- With no ceiling known and no risk engine, one request alone is approved: the one for no leverage. -/
theorem resolve_unknown (request : LeverageRequest) :
    ((resolveLeverage (some request) none none false).isUsable = true ↔ request.requestedLeverage = leverageMin) ∧
      (resolveLeverage (some request) none none false).reason ≠ .insufficientData ∧
      (resolveLeverage (some request) none none false).requestedLeverage = some request.requestedLeverage := by
  have hrange : validateCeiling request.requestedLeverage "requested_leverage" = none :=
    validateCeiling_eq_none.mpr ⟨request.requested_min, request.requested_max⟩
  have hresolve : resolveLeverage (some request) none none false =
      (domainMinimumDecision request none none).getD (resolveConstrained request none none false) := by
    rw [resolveLeverage, hrange]
    rfl
  rw [hresolve]
  by_cases hasked : request.requestedLeverage = leverageMin
  · have hdecision : domainMinimumDecision request none none =
        some { common request none none .approved .approvedAtDomainMinimum domainMinimumDetail with
          approvedLeverage := some leverageMin
          bindingConstraint := some "domain_minimum" } := by
      rw [domainMinimumDecision, if_neg (not_not_intro hasked)]
      rfl
    rw [hdecision]
    exact ⟨iff_of_true rfl hasked, LeverageReason.noConfusion, rfl⟩
  · have hdecision : domainMinimumDecision request none none = none := by
      rw [domainMinimumDecision, if_pos hasked]
    rw [hdecision]
    exact ⟨iff_of_false Bool.false_ne_true hasked, LeverageReason.noConfusion, rfl⟩

end Chain

section Page

variable {candles : List Candle} {params : TrendMomentumParams} {values : IndicatorValues} {i : Nat}

theorem latest_atr (hlength : candles.length = i + 1) {period : Nat} (hperiod : 1 ≤ period) (p : IndicatorParams) :
    latest (buildResult (Regime.atrSpec period) candles p) "atr" = valueAt (IndicatorLibrary.atr candles period) i := by
  have hfrom := IndicatorStart.from_atr hperiod candles
  have hstart (h : (valueAt (((Regime.atrSpec period).compute candles p).line "atr") i).isSome) :
      (Regime.atrSpec period).warmup p ≤ i := ((hfrom i).mp h).1
  refine (latest_buildResult hlength List.mem_cons_self hstart fun h other hother => ?_).1
  obtain rfl : other = "atr" := List.mem_singleton.mp hother
  exact h

/-- Where the strategy has its figures there is an average true range as well. -/
theorem measureAtrPercent_of_values (h : computeIndicatorValues candles params = some values) :
    ∃ last atrValue, candles.getLast? = some last ∧
      valueAt (IndicatorLibrary.atr candles params.adxPeriod) (candles.length - 1) = some atrValue ∧
      measureAtrPercent candles params =
        if last.close ≤ 0 then none else some (atrValue / last.close * 100) := by
  have hperiod := params.adxPeriod_bounds
  cases hcandles : candles.getLast? with
  | none =>
      rw [List.getLast?_eq_none_iff] at hcandles
      subst hcandles
      cases h
  | some last =>
      obtain ⟨i, hlength⟩ : ∃ i, candles.length = i + 1 :=
        Nat.exists_eq_add_one.mpr (List.length_pos_of_ne_nil fun hnil => by rw [hnil] at hcandles; cases hcandles)
      rw [computeIndicatorValues_of_length hlength] at h
      obtain ⟨-, -, hadx, -, -⟩ := valueAt_of_figuresAt h
      have hstart := startsAt_adx candles params.adxPeriod i (by rw [hadx]; rfl)
      have hfrom : IndicatorStart.From params.adxPeriod (IndicatorLibrary.atr candles params.adxPeriod) :=
        IndicatorStart.from_atr (by omega) candles
      have hcount : (IndicatorLibrary.atr candles params.adxPeriod).length = candles.length :=
        (IndicatorLibrary.causal_atr params.adxPeriod).length candles
      obtain ⟨atrValue, hvalue⟩ := Option.isSome_iff_exists.mp ((hfrom i).mpr ⟨by omega, by omega⟩)
      refine ⟨last, atrValue, rfl, ?_, ?_⟩
      · rw [hlength]
        exact hvalue
      · rw [measureAtrPercent, hcandles, latest_atr hlength (by omega), hvalue]

theorem met_le {conditions : List ConditionOutcome} (h : conditions.length = 4) : met conditions ≤ 4 :=
  h ▸ List.length_filter_le _ _

theorem met_of_all {conditions : List ConditionOutcome} (h : conditions.length = 4)
    (hall : conditions.all ConditionOutcome.satisfied = true) : met conditions = 4 := by
  rw [met, List.filter_eq_self.mpr (List.all_eq_true.mp hall), h]

/-- A side that is called has all of its conditions. -/
theorem met_of_directional (h : (evaluateConditions values params).2.2 ≠ .neutral) :
    max (met (evaluateConditions values params).1) (met (evaluateConditions values params).2.1) = 4 := by
  have hlong : (evaluateConditions values params).1.length = 4 := rfl
  have hshort : (evaluateConditions values params).2.1.length = 4 := rfl
  have hbias : (evaluateConditions values params).2.2 =
      if (evaluateConditions values params).1.all ConditionOutcome.satisfied then .longBias
      else if (evaluateConditions values params).2.1.all ConditionOutcome.satisfied then .shortBias
      else .neutral := rfl
  rw [hbias] at h
  split at h
  · rename_i hall
    rw [met_of_all hlong hall]
    exact max_eq_left (met_le hshort)
  · split at h
    · rename_i hall
      rw [met_of_all hshort hall]
      exact max_eq_right (met_le hlong)
    · exact absurd rfl h

theorem clamped_eq_min {x : Decimal} : clamped x = leverageMin ↔ x ≤ leverageMin := by
  rw [clamped, max_eq_left_iff, min_le_iff]
  exact or_iff_left (by norm_num [leverageMin, leverageMax])

/-- With every condition met the candidate is what the volatility asks for. -/
theorem proposeLeverage_full (percent : Decimal) :
    (percent ≤ 0 ∧ proposeLeverage percent 4 4 = none) ∨
      (0 < percent ∧ ∃ request, proposeLeverage percent 4 4 = some request ∧
        request.requestedLeverage = clamped ⌊targetAdverseMovePercent / percent⌋) := by
  by_cases hpercent : percent ≤ 0
  · exact .inl ⟨hpercent, if_pos hpercent⟩
  · have hpos := not_le.mp hpercent
    refine .inr ⟨hpos, ?_⟩
    rw [proposeLeverage, if_neg hpercent, if_neg (by decide), if_neg (by decide)]
    dsimp only
    rw [if_neg (by norm_num)]
    refine ⟨_, rfl, ?_⟩
    have hraw : raw percent 4 4 = targetAdverseMovePercent / percent := by
      rw [raw, div_self (by norm_num), mul_one]
    have hnonneg : 0 ≤ targetAdverseMovePercent / percent := div_nonneg (by norm_num [targetAdverseMovePercent]) hpos.le
    change clamped (truncDiv (raw percent 4 4) 1) = _
    rw [hraw, truncDiv, div_one, if_pos hnonneg]

theorem floor_le_min_iff {percent : Decimal} (h : 0 < percent) :
    ((⌊targetAdverseMovePercent / percent⌋ : Int) : Decimal) ≤ leverageMin ↔ 1 < percent := by
  have hone : leverageMin = ((1 : Int) : Decimal) := by norm_num [leverageMin]
  have htwo : ⌊targetAdverseMovePercent / percent⌋ ≤ 1 ↔ targetAdverseMovePercent / percent < 2 := by
    rw [← Int.lt_add_one_iff, Int.floor_lt]
    norm_num
  rw [hone, Int.cast_le, htwo, div_lt_iff₀ h, targetAdverseMovePercent]
  constructor <;> intro h <;> linarith

/-- What the strategy reports of leverage, by its bias and the volatility. -/
structure Unlevered (bias : StrategyBias) (percent : Option Decimal) (said : StrategyLeverage) : Prop where
  usable_iff : said.isUsable = true ↔ bias ≠ .neutral ∧ ∃ p, percent = some p ∧ 1 < p
  approved : ∀ l ∈ said.approvedLeverage, l = leverageMin
  silent_iff : (∃ detail, said = .noDirectionalBias detail) ↔ bias = .neutral
  unmeasured_iff : ∀ decision, said = .resolved decision →
    (decision.reason = .insufficientData ↔ ¬ ∃ p, percent = some p ∧ 0 < p)
  asked : ∀ decision, said = .resolved decision → ∀ l ∈ decision.requestedLeverage,
    ∃ p, percent = some p ∧ l = clamped ⌊targetAdverseMovePercent / p⌋

/-- Without a candidate the decision lacks data, and approves nothing. -/
theorem unlevered_unproposed {percent : Option Decimal} {bias : StrategyBias} (hbias : bias ≠ .neutral)
    (hsmall : ¬ ∃ p, percent = some p ∧ 0 < p) :
    Unlevered bias percent (.resolved (resolveLeverage none none none false)) where
  usable_iff := iff_of_false Bool.false_ne_true fun ⟨_, p, hp, hlt⟩ => hsmall ⟨p, hp, one_pos.trans hlt⟩
  approved l hl := by cases hl
  silent_iff := iff_of_false (fun ⟨_, h⟩ => by cases h) hbias
  unmeasured_iff decision h := by
    cases h
    exact iff_of_true rfl hsmall
  asked decision h l hl := by
    cases h
    cases hl

/-- A candidate is approved where it is the domain minimum. -/
theorem unlevered_proposed {p : Decimal} {bias : StrategyBias} (hbias : bias ≠ .neutral) (hp : 0 < p)
    {request : LeverageRequest}
    (hrequest : request.requestedLeverage = clamped ⌊targetAdverseMovePercent / p⌋) :
    Unlevered bias (some p) (.resolved (resolveLeverage (some request) none none false)) := by
  obtain ⟨husable, hreason, hasked⟩ := resolve_unknown request
  exact
    { usable_iff := by
        refine husable.trans ?_
        rw [hrequest, clamped_eq_min, floor_le_min_iff hp]
        refine ⟨fun h => ⟨hbias, p, rfl, h⟩, ?_⟩
        rintro ⟨-, p', hp', h⟩
        obtain rfl := Option.some.inj hp'
        exact h
      approved := fun l hl => by
        rcases resolveLeverage_least hl with ⟨rfl, -⟩ | ⟨_, _, hexchange, -⟩
        · rfl
        · cases hexchange
      silent_iff := iff_of_false (fun ⟨_, h⟩ => by cases h) hbias
      unmeasured_iff := fun decision h => by
        cases h
        exact iff_of_false hreason (not_not_intro ⟨p, rfl, hp⟩)
      asked := fun decision h l hl => by
        cases h
        rw [hasked] at hl
        obtain rfl := Option.some.inj hl
        exact ⟨p, rfl, hrequest⟩ }

theorem unlevered (percent : Option Decimal) {bias : StrategyBias} (hbias : bias ≠ .neutral) :
    Unlevered bias percent
      (.resolved (resolveLeverage (percent.bind fun p => proposeLeverage p 4 4) none none false)) := by
  cases percent with
  | none => exact unlevered_unproposed hbias fun ⟨p, hp, _⟩ => by cases hp
  | some p =>
      rw [Option.bind_some]
      rcases proposeLeverage_full p with ⟨hp, hpropose⟩ | ⟨hp, request, hpropose, hrequest⟩
      · rw [hpropose]
        refine unlevered_unproposed hbias ?_
        rintro ⟨p', hp', hpos⟩
        obtain rfl := Option.some.inj hp'
        exact absurd hpos (not_lt.mpr hp)
      · rw [hpropose]
        exact unlevered_proposed hbias hp hrequest

theorem unlevered_neutral (percent : Option Decimal) (detail : String) :
    Unlevered .neutral percent (.noDirectionalBias detail) where
  usable_iff := iff_of_false Bool.false_ne_true fun h => h.1 rfl
  approved l hl := by cases hl
  silent_iff := iff_of_true ⟨detail, rfl⟩ rfl
  unmeasured_iff decision h := by cases h
  asked decision h := by cases h

/-- Analysis alone approves no leverage. Whatever the candles, the strategy reports a leverage exactly where it has
its figures; it is usable exactly where a side is called and the average true range is over one percent of the last
close, and then it is the domain minimum, which borrows nothing. -/
theorem strategy_approves_no_leverage (candles : List Candle) (params : TrendMomentumParams) :
    match strategyLeverage candles params with
    | none => computeIndicatorValues candles params = none
    | some said => ∃ values last atrValue, computeIndicatorValues candles params = some values ∧
        candles.getLast? = some last ∧
        valueAt (IndicatorLibrary.atr candles params.adxPeriod) (candles.length - 1) = some atrValue ∧
        Unlevered (evaluateConditions values params).2.2
          (if last.close ≤ 0 then none else some (atrValue / last.close * 100)) said := by
  rw [strategyLeverage]
  cases hvalues : computeIndicatorValues candles params with
  | none => rfl
  | some values =>
      obtain ⟨last, atrValue, hlast, hvalue, hpercent⟩ := measureAtrPercent_of_values hvalues
      refine ⟨values, last, atrValue, rfl, hlast, hvalue, ?_⟩
      rw [← hpercent]
      dsimp only
      by_cases hbias : (evaluateConditions values params).2.2 = .neutral
      · rw [leverageDecision, if_pos hbias, hbias]
        exact unlevered_neutral _ _
      · rw [leverageDecision, if_neg hbias, met_of_directional hbias]
        exact unlevered _ hbias

end Page

end Aetheris.LeverageCandidate
