import Mathlib.Tactic.NormNum
import Mathlib.Tactic.Linarith
import Aetheris.Lib.Raising
import Aetheris.RiskEngine

namespace Aetheris.RiskEnvelope

open Lib Transaction Money Clock Enums Leverage OrderIdentity RiskEngine

section Steps

variable {α β : Type} {s : List String} {code : RiskRejectionCode} {detail : String} {leverage : LeverageDecision}
  {riskMax : Option Decimal} {r : β × List String}

theorem stop_ok {r : α × List String} : stop code detail leverage riskMax s = .ok r ↔ False := by
  rw [stop, bind_ok]
  simp only [throw_ok, and_false, exists_const]

theorem refuseWhen_ok {p : Prop} [Decidable p] {r : Unit × List String} :
    refuseWhen p code detail leverage riskMax s = .ok r ↔ ¬p ∧ r = ((), s) := by
  unfold refuseWhen
  split
  next h => simp only [stop_ok, not_true, h, false_and]
  next h => simp only [pure_ok, h, not_false_iff, true_and]

theorem check_bind {name : String} {f : Unit → Ruling β} :
    (check name >>= f) s = .ok r ↔ f () (s ++ [name]) = .ok r := by
  rw [bind_of_ok (show check name s = .ok ((), s ++ [name]) from rfl)]

theorem refuseWhen_bind {p : Prop} [Decidable p] {f : Unit → Ruling β} :
    (refuseWhen p code detail leverage riskMax >>= f) s = .ok r ↔ ¬p ∧ f () s = .ok r := by
  simp only [bind_ok, refuseWhen_ok, Prod.mk.injEq]
  constructor
  · rintro ⟨_, _, ⟨hp, _, rfl⟩, h⟩
    exact ⟨hp, h⟩
  · rintro ⟨hp, h⟩
    exact ⟨(), s, ⟨hp, trivial, rfl⟩, h⟩

theorem required_bind {value : Option α} {f : α → Ruling β} :
    (required value code detail leverage >>= f) s = .ok r ↔ ∃ a, value = some a ∧ f a s = .ok r := by
  cases value with
  | none => simp [required, bind_ok, stop_ok]
  | some a => simp [required]

theorem raising_bind {x : Except EvaluateError α} {f : α → Ruling β} :
    (raising x >>= f) s = .ok r ↔ ∃ a, x = .ok a ∧ f a s = .ok r := by
  cases x with
  | error e => simp [raising, bind_ok, throw_ok]
  | ok a => simp [raising]

end Steps

variable {proposal : RiskProposal} {account : RiskAccountView} {market : RiskMarketView} {policy : RiskPolicy}
  {now : Timestamp} {symbol : String} {s t : List String}

theorem ruleAccount_ok (h : ruleAccount account s = .ok ((), t)) :
    account.modeEnabled = true ∧ account.emergencyStopped = false ∧ account.unreconciledOrders = 0 ∧
      account.lockState = .none := by
  simp only [ruleAccount, check_bind, refuseWhen_bind, refuseWhen_ok] at h
  obtain ⟨hmode, hstop, hpending, hlock, _⟩ := h
  refine ⟨by simpa using hmode, by simpa using hstop, by omega, ?_⟩
  simpa [RiskLockState.blocksEntries] using hlock

theorem ruleMarket_ok {price : Decimal} (h : ruleMarket symbol market policy s = .ok (price, t)) :
    market.status = .ok ∧ market.lastPrice = some price ∧
      ∃ age, market.ageSeconds = some age ∧ age ≤ policy.maxDataAgeSeconds := by
  simp only [ruleMarket, check_bind, refuseWhen_bind, required_bind, pure_ok, Prod.mk.injEq] at h
  obtain ⟨hstatus, p, hprice, age, hage, hold, rfl, _⟩ := h
  exact ⟨not_not.mp hstatus, hprice, age, hage, not_lt.mp hold⟩

theorem ruleSlots_ok (h : ruleSlots symbol account policy s = .ok ((), t)) :
    symbol ∉ account.openSymbols ∧ (account.openPositionCount : Int) < policy.maxOpenPositions := by
  simp only [ruleSlots, check_bind, refuseWhen_bind, refuseWhen_ok, not_le] at h
  exact ⟨h.1, h.2.1⟩

theorem rulePacing_ok (h : rulePacing symbol account policy now s = .ok ((), t)) :
    ∀ entered ∈ account.lastEntryAt, 0 < policy.entryCooldownSeconds →
      policy.entryCooldownSeconds ≤ totalSeconds (now - entered) := by
  simp only [rulePacing, check_bind, refuseWhen_ok] at h
  intro entered hentered hcooldown
  by_contra hearly
  refine h.1 ?_
  rw [coolingDown, hentered]
  simp [hcooldown, not_le.mp hearly]

theorem ruleVolatility_ok (h : ruleVolatility symbol market policy s = .ok ((), t)) :
    market.volatilityStatus = .measured ∧ ∃ atr, market.atrPercent = some atr ∧ atr ≤ policy.maxAtrPercent := by
  simp only [ruleVolatility, check_bind, refuseWhen_bind, refuseWhen_ok, required_bind] at h
  obtain ⟨hmeasured, atr, hatr, hcalm, _⟩ := h
  exact ⟨not_not.mp hmeasured, atr, hatr, not_lt.mp hcalm⟩

theorem leverageRequest_ok {request : LeverageRequest} (h : leverageRequest proposal = .ok request) :
    request.requestedLeverage = proposal.requestedLeverage := by
  unfold leverageRequest at h
  split at h
  · cases h
    rfl
  · cases h

/-- A leverage that is ruled is the one the chain of ceilings resolved. -/
theorem ruleLeverage_resolved {decision : LeverageDecision} {approved : Decimal}
    (h : ruleLeverage proposal account market policy s = .ok ((decision, approved), t)) :
    ∃ request, leverageRequest proposal = .ok request ∧ decision.isUsable = true ∧
      decision = resolveLeverage (some request) market.exchangeMaxLeverage (derivedCeiling proposal account policy) true ∧
      decision.approvedLeverage = some approved := by
  simp only [ruleLeverage, check_bind, refuseWhen_bind, raising_bind] at h
  obtain ⟨request, hrequest, husable, h⟩ := h
  refine ⟨request, hrequest, ?_⟩
  cases hl : (resolveLeverage (some request) market.exchangeMaxLeverage
    (derivedCeiling proposal account policy) true).approvedLeverage with
  | none => simp only [hl, stop_ok] at h
  | some l =>
      simp only [hl, pure_ok, Prod.mk.injEq] at h
      obtain ⟨⟨rfl, rfl⟩, _⟩ := h
      exact ⟨by simpa using husable, rfl, hl⟩

theorem ruleLeverage_ok {decision : LeverageDecision} {approved : Decimal}
    (h : ruleLeverage proposal account market policy s = .ok ((decision, approved), t)) :
    ∃ request, leverageRequest proposal = .ok request ∧ decision.approvedLeverage = some approved ∧
      Permitted request market.exchangeMaxLeverage (derivedCeiling proposal account policy) approved := by
  obtain ⟨request, hrequest, _, hdecision, happroved⟩ := ruleLeverage_resolved h
  exact ⟨request, hrequest, happroved, resolveLeverage_approved (hdecision ▸ happroved)⟩

theorem ruleMargin_ok {decision : LeverageDecision} {riskMax : Option Decimal}
    (h : ruleMargin proposal account decision riskMax s = .ok ((), t)) :
    0 < proposal.requestedMargin ∧ proposal.requestedMargin ≤ account.availableBalance := by
  simp only [ruleMargin, check_bind, refuseWhen_bind, refuseWhen_ok, not_le, not_lt] at h
  exact ⟨h.1, h.2.1⟩

theorem ruleLeverage_usable {decision : LeverageDecision} {approved : Decimal}
    (h : ruleLeverage proposal account market policy s = .ok ((decision, approved), t)) : decision.isUsable = true := by
  obtain ⟨_, _, husable, _⟩ := ruleLeverage_resolved h
  exact husable

/-- A size that a venue's filters let through, with what it is worth. -/
structure Listed (f : SymbolFilters) (price quantity notional : Decimal) : Prop where
  positive : 0 < quantity
  stepped : ∃ n : ℤ, quantity = n * f.stepSize
  least : f.minQuantity ≤ quantity
  notional_eq : notional = quantizeUsdt (quantity * price)
  worth : ∀ least ∈ f.minNotional, least ≤ notional

theorem ruleFilters_listed {price notional quantity sized : Decimal} {decision : LeverageDecision}
    {riskMax : Option Decimal} {f : SymbolFilters} (hf : market.filters = some f)
    (h : ruleFilters symbol market price notional decision riskMax s = .ok ((quantity, sized), t)) :
    Listed f price quantity sized := by
  simp only [ruleFilters, check_bind, raising_bind, hf, refuseWhen_bind, pure_ok, Prod.mk.injEq] at h
  obtain ⟨_, _, floored, hfloored, hpos, hleast, hworth, ⟨rfl, rfl⟩, _⟩ := h
  refine ⟨not_le.mp hpos, ?_, ?_, rfl, ?_⟩
  · cases hstep : floorToStep _ f.stepSize with
    | error e =>
        rw [hstep] at hfloored
        cases hfloored
    | ok x =>
        rw [hstep] at hfloored
        cases hfloored
        exact ⟨_, (floorToStep_ok.mp hstep).2⟩
  · by_contra hshort
    have hmin : 0 < f.minQuantity := (not_le.mp hpos).trans (not_le.mp hshort)
    exact hleast ⟨hmin, not_le.mp hshort⟩
  · intro least hleast'
    by_contra hshort
    refine hworth ?_
    rw [hleast']
    exact decide_eq_true (not_le.mp hshort)

/-- What an approved notional comes to once the filters have truncated the quantity. -/
def truncated (filters : Option SymbolFilters) (price notional : Decimal) : Decimal :=
  match filters with
  | none => notional
  | some filters => quantizeUsdt (truncDiv (notional / price) filters.stepSize * filters.stepSize * price)

theorem ruleFilters_ok {price notional quantity sized : Decimal} {decision : LeverageDecision}
    {riskMax : Option Decimal}
    (h : ruleFilters symbol market price notional decision riskMax s = .ok ((quantity, sized), t)) :
    sized = truncated market.filters price notional ∧ (market.filters.isSome → 0 < quantity) ∧
      ∀ filters ∈ market.filters,
        quantity = truncDiv (notional / price) filters.stepSize * filters.stepSize := by
  simp only [ruleFilters, check_bind, raising_bind] at h
  obtain ⟨q, hq, h⟩ := h
  have hquotient : q = notional / price := by
    split at hq <;> cases hq
    rfl
  subst hquotient
  cases hfilters : market.filters with
  | none =>
      simp only [hfilters, pure_ok, Prod.mk.injEq] at h
      simp [truncated, h.1.2]
  | some filters =>
      simp only [hfilters, raising_bind, refuseWhen_bind, pure_ok, Prod.mk.injEq] at h
      obtain ⟨floored, hfloored, hpos, _, _, ⟨rfl, rfl⟩, _⟩ := h
      have hvalue : quantity = truncDiv (notional / price) filters.stepSize * filters.stepSize := by
        cases hstep : floorToStep (notional / price) filters.stepSize with
        | error e =>
            rw [hstep] at hfloored
            cases hfloored
        | ok x =>
            rw [hstep] at hfloored
            cases hfloored
            exact (floorToStep_ok.mp hstep).2
      refine ⟨by rw [truncated, ← hvalue], fun _ => not_le.mp hpos, ?_⟩
      rintro _ ⟨⟩
      exact hvalue

theorem ruleExposure_ok {notional : Decimal} {decision : LeverageDecision} {riskMax : Option Decimal}
    (h : ruleExposure account policy notional decision riskMax s = .ok ((), t)) :
    notional ≤ policy.maxPositionNotional ∧ account.totalNotional + notional ≤ policy.maxPortfolioExposure := by
  simp only [ruleExposure, check_bind, refuseWhen_bind, refuseWhen_ok, not_lt] at h
  exact ⟨h.1, h.2.1⟩

theorem truncateCents_le {value : Decimal} (h : 0 ≤ value) : truncateCents value ≤ value :=
  truncDiv_mul_le (by norm_num) h

/-- A ceiling is the floor of one, or within everything it was derived from. -/
theorem deriveRiskMaxLeverage_some {stopLoss : Option Decimal} {margin pnl limit configured c : Decimal}
    (h : deriveRiskMaxLeverage stopLoss margin pnl limit configured = some c) :
    ∃ stop, stopLoss = some stop ∧ 0 < stop ∧ 0 < margin ∧ leverageMin ≤ configured ∧
      (c = leverageMin ∨ leverageMin ≤ c ∧ 0 < pnl - limit ∧ c ≤ 100 / (stop * liquidationSafetyFactor) ∧
        c * (margin * stop / 100) ≤ pnl - limit ∧ c ≤ configured) := by
  unfold deriveRiskMaxLeverage at h
  cases stopLoss with
  | none => cases h
  | some stop =>
      dsimp only at h
      split at h
      · cases h
      next hstop =>
      split at h
      · cases h
      next hinputs =>
      rw [not_or, not_le, not_lt] at hinputs
      obtain ⟨hmargin, hconfigured⟩ := hinputs
      have hstop : 0 < stop := not_le.mp hstop
      refine ⟨stop, rfl, hstop, hmargin, hconfigured, ?_⟩
      split at h
      · exact .inl (Option.some.inj h).symm
      next hbudget =>
      have hbudget : 0 < pnl - limit := not_le.mp hbudget
      have hloss : 0 < margin * stop / 100 := by positivity
      rw [if_pos hloss] at h
      split at h
      · exact .inl (Option.some.inj h).symm
      next hfloor =>
      obtain rfl := Option.some.inj h
      have hsources : (0 : Decimal) ≤ min (min (min (100 / (stop * liquidationSafetyFactor))
          ((pnl - limit) / (margin * stop / 100))) configured) leverageMax := by
        have hfactor : (0 : Decimal) < liquidationSafetyFactor := by norm_num [liquidationSafetyFactor]
        have hone : (0 : Decimal) ≤ configured := le_trans (by norm_num [leverageMin]) hconfigured
        refine le_min (le_min (le_min ?_ ?_) hone) (by norm_num [leverageMax])
        · exact (div_pos (by norm_num) (mul_pos hstop hfactor)).le
        · exact (div_pos hbudget hloss).le
      have hle := truncateCents_le hsources
      refine .inr ⟨not_lt.mp hfloor, hbudget, ?_, ?_, ?_⟩
      · exact hle.trans ((min_le_left _ _).trans ((min_le_left _ _).trans (min_le_left _ _)))
      · have hfrom := hle.trans ((min_le_left _ _).trans ((min_le_left _ _).trans (min_le_right _ _)))
        exact (le_div_iff₀ hloss).mp hfrom
      · exact hle.trans ((min_le_left _ _).trans (min_le_right _ _))

theorem price_pos_of_whole {f : SymbolFilters} {price notional : Decimal} (hnonneg : 0 ≤ notional)
    (hwhole : 0 < truncDiv (notional / price) f.stepSize * f.stepSize) : 0 < price := by
  by_contra hprice
  have hquotient : notional / price ≤ 0 := div_nonpos_of_nonneg_of_nonpos hnonneg (not_lt.mp hprice)
  exact (truncDiv_nonpos f.step_pos hquotient).not_gt hwhole

theorem truncated_le {filters : Option SymbolFilters} {price notional : Decimal} (hgrid : EightPlaces notional)
    (hnonneg : 0 ≤ notional) (hprice : ∀ f ∈ filters, 0 < price) : truncated filters price notional ≤ notional := by
  cases filters with
  | none => exact le_rfl
  | some f =>
      have hprice := hprice f rfl
      have hquantity : truncDiv (notional / price) f.stepSize * f.stepSize ≤ notional / price :=
        truncDiv_mul_le f.step_pos (div_nonneg hnonneg hprice.le)
      calc quantizeUsdt (truncDiv (notional / price) f.stepSize * f.stepSize * price)
          ≤ quantizeUsdt notional := quantizeUsdt_mono ((le_div_iff₀ hprice).mp hquantity)
        _ = notional := quantizeUsdt_of_eightPlaces hgrid

/-- The margin taken back from a truncated notional is covered by what the request was covered by. -/
theorem margin_le {margin available l notional : Decimal} (havailable : EightPlaces available)
    (hl : leverageMin ≤ l) (hmargin : margin ≤ available) (hnotional : notional ≤ quantizeUsdt (margin * l)) :
    quantizeUsdt (notional / l) ≤ available := by
  rcases hl.eq_or_lt with rfl | hl
  · have hle : notional ≤ available := by
      refine hnotional.trans ?_
      rw [leverageMin, mul_one, ← quantizeUsdt_of_eightPlaces havailable]
      exact quantizeUsdt_mono hmargin
    rw [leverageMin, div_one, ← quantizeUsdt_of_eightPlaces havailable]
    exact quantizeUsdt_mono hle
  · have hone : (1 : Decimal) < l := hl
    have hpos : 0 < l := by linarith
    refine Lib.FixedPoint.halfUp_le_grid usdtUnits_pos havailable ?_
    have hround : notional ≤ margin * l + 1 / (2 * usdtUnits) := hnotional.trans (quantizeUsdt_le _)
    have hhalf : (0 : Decimal) < 1 / (2 * usdtUnits) := by norm_num [usdtUnits]
    have hslack : 1 / (2 * usdtUnits) < 1 / (2 * usdtUnits) * l := by
      linarith [mul_lt_mul_of_pos_left hone hhalf]
    rw [div_lt_iff₀ hpos, add_mul]
    have hscaled : margin * l ≤ available * l := mul_le_mul_of_nonneg_right hmargin hpos.le
    linarith

variable [Runtime] {verdict : RiskVerdict}

/-- What a ruling that approved went through: the checks it passed, and the
numbers it ended with. -/
structure Cleared (proposal : RiskProposal) (account : RiskAccountView) (market : RiskMarketView)
    (policy : RiskPolicy) (now : Timestamp) (price l notional : Decimal) (verdict : RiskVerdict) : Prop where
  authority : account.modeEnabled = true ∧ account.emergencyStopped = false ∧ account.unreconciledOrders = 0 ∧
    account.lockState = .none
  data : market.status = .ok ∧ market.lastPrice = some price ∧
    ∃ age, market.ageSeconds = some age ∧ age ≤ policy.maxDataAgeSeconds
  slots : Runtime.upper proposal.symbol ∉ account.openSymbols ∧
    (account.openPositionCount : Int) < policy.maxOpenPositions
  pacing : ∀ entered ∈ account.lastEntryAt, 0 < policy.entryCooldownSeconds →
    policy.entryCooldownSeconds ≤ totalSeconds (now - entered)
  volatility : market.volatilityStatus = .measured ∧
    ∃ atr, market.atrPercent = some atr ∧ atr ≤ policy.maxAtrPercent
  leverage : ∃ request, leverageRequest proposal = .ok request ∧
    Permitted request market.exchangeMaxLeverage (derivedCeiling proposal account policy) l
  funded : 0 < proposal.requestedMargin ∧ proposal.requestedMargin ≤ account.availableBalance
  sized : notional = truncated market.filters price (quantizeUsdt (proposal.requestedMargin * l))
  whole : ∀ f ∈ market.filters,
    0 < truncDiv (quantizeUsdt (proposal.requestedMargin * l) / price) f.stepSize * f.stepSize
  exposure : notional ≤ policy.maxPositionNotional ∧
    account.totalNotional + notional ≤ policy.maxPortfolioExposure
  approvedLeverage : verdict.leverage.approvedLeverage = some l
  approvedMargin : verdict.approvedMargin = some (quantizeUsdt (notional / l))
  approvedNotional : verdict.approvedNotional = some notional

/-- The size an approval names. -/
structure Measured (market : RiskMarketView) (price notional : Decimal) (verdict : RiskVerdict) : Prop where
  usable : verdict.leverage.isUsable = true
  listed : ∀ f ∈ market.filters, ∃ quantity, verdict.approvedQuantity = some quantity ∧
    Listed f price quantity notional

theorem rule_ok (h : rule proposal account market policy now s = .ok (verdict, t)) :
    ∃ price l notional, Cleared proposal account market policy now price l notional verdict ∧
      Measured market price notional verdict := by
  simp only [rule, bind_ok] at h
  obtain ⟨_, _, haccount, price, _, hmarket, _, _, hslots, _, _, hpacing, _, _, hvolatility, ⟨decision, l⟩, _,
    hleverage, _, _, hmargin, ⟨quantity, notional⟩, _, hfilters, _, _, hexposure, happrove⟩ := h
  obtain ⟨request, hrequest, hl, hpermitted⟩ := ruleLeverage_ok hleverage
  obtain ⟨hsized, hpos, hquantity⟩ := ruleFilters_ok hfilters
  have hwhole : ∀ f ∈ market.filters,
      0 < truncDiv (quantizeUsdt (proposal.requestedMargin * l) / price) f.stepSize * f.stepSize := by
    intro f hf
    rw [← hquantity f hf]
    exact hpos (by rw [hf]; rfl)
  simp only [approve, check_bind] at happrove
  cases happrove
  exact ⟨price, l, notional, ⟨ruleAccount_ok haccount, ruleMarket_ok hmarket, ruleSlots_ok hslots,
    rulePacing_ok hpacing, ruleVolatility_ok hvolatility, ⟨request, hrequest, hpermitted⟩, ruleMargin_ok hmargin,
    hsized, hwhole, ruleExposure_ok hexposure, hl, rfl, rfl⟩,
    ⟨ruleLeverage_usable hleverage, fun f hf => ⟨quantity, rfl, ruleFilters_listed hf hfilters⟩⟩⟩

theorem evaluate_measured (h : evaluate proposal account market policy now = .ok verdict)
    (ha : verdict.approved = true) :
    ∃ price l notional, Cleared proposal account market policy now price l notional verdict ∧
      Measured market price notional verdict := by
  unfold evaluate at h
  cases hrule : rule proposal account market policy now [] with
  | error e =>
      rw [hrule] at h
      cases e with
      | refused =>
          cases h
          cases ha
      | raised => cases h
  | ok r =>
      rw [hrule] at h
      cases h
      exact rule_ok hrule

theorem evaluate_cleared (h : evaluate proposal account market policy now = .ok verdict)
    (ha : verdict.approved = true) :
    ∃ price l notional, Cleared proposal account market policy now price l notional verdict := by
  obtain ⟨price, l, notional, hcleared, _⟩ := evaluate_measured h ha
  exact ⟨price, l, notional, hcleared⟩

variable {price l notional : Decimal}

theorem Cleared.asked_nonneg (h : Cleared proposal account market policy now price l notional verdict) :
    0 ≤ quantizeUsdt (proposal.requestedMargin * l) := by
  obtain ⟨_, _, hpermitted⟩ := h.leverage
  have hl : 0 ≤ l := le_trans (by norm_num [leverageMin]) hpermitted.min
  exact quantizeUsdt_nonneg (mul_nonneg h.funded.1.le hl)

theorem Cleared.price_pos (h : Cleared proposal account market policy now price l notional verdict) :
    ∀ f ∈ market.filters, 0 < price :=
  fun f hf => price_pos_of_whole h.asked_nonneg (h.whole f hf)

theorem Cleared.notional_le (h : Cleared proposal account market policy now price l notional verdict) :
    notional ≤ quantizeUsdt (proposal.requestedMargin * l) := by
  rw [h.sized]
  exact truncated_le (eightPlaces_quantizeUsdt _) h.asked_nonneg h.price_pos

theorem Cleared.leverage_le (h : Cleared proposal account market policy now price l notional verdict)
    (hmax : leverageMin ≤ policy.maxLeverage) : l ≤ policy.maxLeverage := by
  obtain ⟨_, _, hpermitted⟩ := h.leverage
  rcases hpermitted.known with rfl | hknown
  · exact hmax
  · obtain ⟨c, hc⟩ := Option.isSome_iff_exists.mp hknown
    obtain ⟨_, _, _, _, _, rfl | hbounds⟩ := deriveRiskMaxLeverage_some hc
    · exact (hpermitted.risk _ hc).trans hmax
    · exact (hpermitted.risk _ hc).trans hbounds.2.2.2.2

def exampleProposal : RiskProposal where
  symbol := "BTCUSDT"
  side := .buy
  requestedMargin := 50
  requestedLeverage := 3
  stopLossPercent := some 2

def exampleAccount : RiskAccountView where
  availableBalance := 1000
  openSymbols := ["ETHUSDT"]
  openPositionCount := 1
  totalNotional := 200
  sessionRealizedPnl := -4
  dailyProfitTarget := 20
  dailyLossLimit := -10
  lockState := .none
  lastEntryAt := some 0

def exampleFilters : SymbolFilters := ⟨1 / 1000, 1 / 1000, none, some 5, by norm_num, by norm_num⟩

def exampleMarket : RiskMarketView where
  status := .ok
  ageSeconds := some 1
  lastPrice := some 61
  atrPercent := some 2
  filters := some exampleFilters
  exchangeMaxLeverage := some 20

def examplePolicy : RiskPolicy := ⟨3, 500, 1000, 10, 5, 60, 5⟩

/-- The envelope an approved verdict stays inside. -/
structure Sound (proposal : RiskProposal) (account : RiskAccountView) (market : RiskMarketView)
    (policy : RiskPolicy) (now : Timestamp) (verdict : RiskVerdict) : Prop where
  mode_enabled : account.modeEnabled = true
  not_stopped : account.emergencyStopped = false
  reconciled : account.unreconciledOrders = 0
  unlocked : account.lockState = .none
  price_ok : market.status = .ok
  fresh : ∃ age ∈ market.ageSeconds, age ≤ policy.maxDataAgeSeconds
  symbol_free : Runtime.upper proposal.symbol ∉ account.openSymbols
  slot_free : (account.openPositionCount : Int) < policy.maxOpenPositions
  cooled : ∀ entered ∈ account.lastEntryAt, 0 < policy.entryCooldownSeconds →
    policy.entryCooldownSeconds ≤ totalSeconds (now - entered)
  calm : market.volatilityStatus = .measured ∧ ∃ atr ∈ market.atrPercent, atr ≤ policy.maxAtrPercent
  leverage : ∃ l ∈ verdict.leverage.approvedLeverage, 1 ≤ l ∧ l ≤ 500 ∧ l ≤ proposal.requestedLeverage ∧
    l ≤ policy.maxLeverage ∧ (∀ c ∈ market.exchangeMaxLeverage, l ≤ c) ∧
    ∀ c ∈ derivedCeiling proposal account policy, l ≤ c
  margin : ∃ m ∈ verdict.approvedMargin, m ≤ account.availableBalance
  notional : ∃ n ∈ verdict.approvedNotional, n ≤ policy.maxPositionNotional ∧
    account.totalNotional + n ≤ policy.maxPortfolioExposure

def remainingBudget (account : RiskAccountView) : Decimal := account.sessionRealizedPnl - account.dailyLossLimit

/-- Losing the stop distance on this notional stays inside a budget that is not spent yet. -/
def StopFits (account : RiskAccountView) (stop notional : Decimal) : Prop :=
  0 < remainingBudget account ∧ notional * stop / 100 ≤ remainingBudget account + 1 / usdtUnits

/-- What the requested margin buys without leverage, in whole venue steps. -/
def unleveredNotional (proposal : RiskProposal) (market : RiskMarketView) (price : Decimal) : Decimal :=
  truncated market.filters price (quantizeUsdt proposal.requestedMargin)

theorem Cleared.unlevered_le (h : Cleared proposal account market policy now price l notional verdict) :
    unleveredNotional proposal market price ≤ proposal.requestedMargin * l + 1 / (2 * usdtUnits) := by
  obtain ⟨_, _, hpermitted⟩ := h.leverage
  have hgrow : proposal.requestedMargin ≤ proposal.requestedMargin * l :=
    le_mul_of_one_le_right h.funded.1.le hpermitted.min
  calc unleveredNotional proposal market price ≤ quantizeUsdt proposal.requestedMargin :=
        truncated_le (eightPlaces_quantizeUsdt _) (quantizeUsdt_nonneg h.funded.1.le) h.price_pos
    _ ≤ proposal.requestedMargin + 1 / (2 * usdtUnits) := quantizeUsdt_le _
    _ ≤ proposal.requestedMargin * l + 1 / (2 * usdtUnits) := by linarith

/-- A leverage above one was derived from a stop loss that the budget covers. -/
theorem Cleared.stop_out_le (h : Cleared proposal account market policy now price l notional verdict)
    (hl : 1 < l) {stop : Decimal} (hstop : proposal.stopLossPercent = some stop) :
    0 < stop ∧ stop < 50 ∧ 0 < remainingBudget account ∧
      proposal.requestedMargin * l * stop / 100 ≤ remainingBudget account := by
  obtain ⟨_, _, hpermitted⟩ := h.leverage
  have hknown : (derivedCeiling proposal account policy).isSome :=
    hpermitted.known.resolve_left (fun he => absurd hl (not_lt.mpr he.le))
  obtain ⟨c, hc⟩ := Option.isSome_iff_exists.mp hknown
  have hle : l ≤ c := hpermitted.risk c hc
  obtain ⟨stop', hstop', hpos, hmargin, _, hcase⟩ := deriveRiskMaxLeverage_some hc
  obtain rfl : stop = stop' := Option.some.inj (hstop.symm.trans hstop')
  obtain ⟨_, hbudget, hliquidation, hloss, _⟩ := hcase.resolve_left (fun he => by
    rw [he] at hle
    exact absurd hl (not_lt.mpr hle))
  refine ⟨hpos, ?_, hbudget, ?_⟩
  · have hfactor : 0 < stop * liquidationSafetyFactor := mul_pos hpos (by norm_num [liquidationSafetyFactor])
    have hwide : 1 < 100 / (stop * liquidationSafetyFactor) := hl.trans_le (hle.trans hliquidation)
    rw [lt_div_iff₀ hfactor, liquidationSafetyFactor] at hwide
    linarith
  · have hunit : 0 ≤ proposal.requestedMargin * stop / 100 := by positivity
    calc proposal.requestedMargin * l * stop / 100 = l * (proposal.requestedMargin * stop / 100) := by ring
      _ ≤ c * (proposal.requestedMargin * stop / 100) := mul_le_mul_of_nonneg_right hle hunit
      _ ≤ remainingBudget account := hloss

omit [Runtime] in
theorem stopFits_of_le {stop size notional : Decimal} (hstop : 0 < stop ∧ stop < 50)
    (hbudget : 0 < remainingBudget account) (hfits : size * stop / 100 ≤ remainingBudget account)
    (hle : notional ≤ size + 1 / (2 * usdtUnits)) : StopFits account stop notional := by
  have hround : 1 / (2 * usdtUnits) * stop / 100 ≤ 1 / usdtUnits := by
    rw [usdtUnits]
    linarith
  have hscaled : notional * stop ≤ (size + 1 / (2 * usdtUnits)) * stop :=
    mul_le_mul_of_nonneg_right hle hstop.1.le
  refine ⟨hbudget, ?_⟩
  rw [add_mul] at hscaled
  linarith

theorem stop_out_fits_iff {stop : Decimal} (hstop : proposal.stopLossPercent = some stop) (hpos : 0 < stop)
    (hprice : market.lastPrice = some price) (h : evaluate proposal account market policy now = .ok verdict)
    (ha : verdict.approved = true) (hnotional : verdict.approvedNotional = some notional) :
    StopFits account stop notional ↔ StopFits account stop (unleveredNotional proposal market price) := by
  obtain ⟨price', l, notional', hcleared⟩ := evaluate_cleared h ha
  obtain rfl : price = price' := Option.some.inj (hprice.symm.trans hcleared.data.2.1)
  obtain rfl : notional = notional' := Option.some.inj (hnotional.symm.trans hcleared.approvedNotional)
  obtain ⟨_, _, hpermitted⟩ := hcleared.leverage
  rcases hpermitted.min.eq_or_lt with rfl | hl
  · rw [hcleared.sized, unleveredNotional, leverageMin, mul_one]
  · obtain ⟨_, hnear, hbudget, hfits⟩ := hcleared.stop_out_le hl hstop
    have hlevered : StopFits account stop notional :=
      stopFits_of_le ⟨hpos, hnear⟩ hbudget hfits (hcleared.notional_le.trans (quantizeUsdt_le _))
    have hunlevered : StopFits account stop (unleveredNotional proposal market price) :=
      stopFits_of_le ⟨hpos, hnear⟩ hbudget hfits hcleared.unlevered_le
    exact iff_of_true hlevered hunlevered

/-- Nine of the day's ten are lost; the next order may lose five at its stop. -/
def tiredAccount : RiskAccountView := { exampleAccount with sessionRealizedPnl := -9 }

def wideProposal : RiskProposal :=
  { exampleProposal with requestedMargin := 10, requestedLeverage := 1, stopLossPercent := some 50 }

omit [Runtime] in
theorem wide_stop_approved : ∃ verdict,
    @evaluate referenceRuntime wideProposal tiredAccount exampleMarket examplePolicy 60000000 = .ok verdict ∧
      (verdict.approved && decide (verdict.approvedNotional = some (9943 / 1000))) = true :=
  Raising.exists_ok (by decide +kernel)

omit [Runtime] in
theorem wide_stop_overruns_budget : ¬ ∀ (proposal : RiskProposal) (account : RiskAccountView)
    (market : RiskMarketView) (policy : RiskPolicy) (now : Timestamp) (verdict : RiskVerdict)
    (stop notional : Decimal), proposal.stopLossPercent = some stop → 0 < stop →
      @evaluate referenceRuntime proposal account market policy now = .ok verdict → verdict.approved = true →
      verdict.approvedNotional = some notional →
      notional * stop / 100 ≤ remainingBudget account + 1 / usdtUnits := by
  intro hclaim
  obtain ⟨verdict, hverdict, h⟩ := wide_stop_approved
  rw [Bool.and_eq_true, decide_eq_true_iff] at h
  have hfits := hclaim wideProposal tiredAccount exampleMarket examplePolicy 60000000 verdict 50 _ rfl (by norm_num)
    hverdict h.1 h.2
  norm_num [remainingBudget, tiredAccount, exampleAccount, usdtUnits] at hfits

omit [Runtime] in
/-- The same order with a nearer stop fits, and is approved at three times. -/
theorem stop_out_fits_iff_example : ∃ verdict notional,
    @evaluate referenceRuntime exampleProposal exampleAccount exampleMarket examplePolicy 60000000 = .ok verdict ∧
      verdict.approvedNotional = some notional ∧ (StopFits exampleAccount 2 notional ↔
        StopFits exampleAccount 2 (unleveredNotional exampleProposal exampleMarket 61)) := by
  have happroved : ∃ verdict,
      @evaluate referenceRuntime exampleProposal exampleAccount exampleMarket examplePolicy 60000000 = .ok verdict ∧
        (verdict.approved && verdict.approvedNotional.isSome) = true := Raising.exists_ok (by decide +kernel)
  obtain ⟨verdict, hverdict, h⟩ := happroved
  rw [Bool.and_eq_true] at h
  obtain ⟨notional, hnotional⟩ := Option.isSome_iff_exists.mp h.2
  exact ⟨verdict, notional, hverdict, hnotional, @stop_out_fits_iff _ _ _ _ _ referenceRuntime _ _ _ _ rfl
    (by norm_num) rfl hverdict h.1 hnotional⟩

end Aetheris.RiskEnvelope
