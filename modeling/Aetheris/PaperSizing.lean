import Aetheris.PaperApproval
import Aetheris.PaperAtomicity

namespace Aetheris.PaperSizing

open Lib Mutation Coroutine Money Clock Enums Leverage RiskEngine OrderIdentity RiskEnvelope PaperRecords PaperGate
  PaperPricing PaperEngine PaperLedger PaperRefinement PaperRuns PaperAccounts PaperOutcomes PaperAtomicity PaperService
  PaperTradingService PaperWorld PaperApproval

section Looks

variable {config : PaperEngineConfig} {now : Timestamp} {marks : Marks} {r t : Repository}

theorem reportPositions_returned {ps : List MutablePosition} {models : List PaperPosition}
    (h : (reportPositions config now marks ps).run r = (.ok models, t)) :
    models = ps.map (positionModel config now marks) ∧ t = r ∧ ∀ p ∈ ps, Reports p.toEntryTerms := by
  induction ps generalizing models with
  | nil =>
      cases h
      exact ⟨rfl, rfl, fun _ hp => nomatch hp⟩
  | cons p rest ih =>
      have hfirst : Reports p.toEntryTerms := by
        obtain ⟨_, _, hp, _⟩ := of_run_bind (congrArg Prod.fst h)
        exact reported_of_run (congrArg Prod.fst hp)
      rw [reportPositions, run_bind_ok (reportPosition_run hfirst)] at h
      rcases hrest : (reportPositions config now marks rest).run r with ⟨e | models', t'⟩
      · rw [run_bind_error hrest] at h
        cases h
      · rw [run_bind_ok hrest] at h
        cases h
        obtain ⟨rfl, rfl, hall⟩ := ih hrest
        exact ⟨rfl, rfl, List.forall_mem_cons.mpr ⟨hfirst, hall⟩⟩

/-- What a look at the account answers, and what it leaves. -/
structure Looked (config : PaperEngineConfig) (now : Timestamp) (marks : Marks) (r : Repository)
    (account : PaperAccount) (t : Repository) : Prop where
  left : t = onDay config now r
  opened : Opened now t
  reportable : Reportable t.state
  answer : ∃ session, t.state.session = some session ∧ account = accountOf t.state t.durability
    (t.state.positions.values.map (positionModel config now marks)) session

theorem looked_of_snapshot {account : PaperAccount}
    (h : (PaperEngine.snapshot config now marks).run r = (.ok account, t)) : Looked config now marks r account t := by
  obtain ⟨session, hsession, hopened⟩ := ensureSession_ok config now r
  obtain ⟨stored, hstored, hday⟩ := hopened
  have hsession' : (ensureSession config now).run (onDay config now r) = (.ok stored, onDay config now r) := by
    rw [ensureSession_run, hstored]
    exact if_pos hday
  rw [PaperEngine.snapshot, run_bind_ok hsession, buildAccount, run_bind_ok load_run] at h
  rcases hmodels : (reportPositions config now marks (onDay config now r).state.positions.values).run
      (onDay config now r) with ⟨e | models, u⟩
  · rw [run_bind_error hmodels] at h
    cases h
  · obtain ⟨rfl, rfl, hall⟩ := reportPositions_returned hmodels
    rw [run_bind_ok hmodels, run_bind_ok hsession'] at h
    cases h
    exact ⟨rfl, ⟨stored, hstored, hday⟩, hall, stored, hstored, rfl⟩

end Looks

section Gate

/-- The account as `_account_view` shows it to the risk engine. -/
def viewOf (service : PaperTradingService) (account : PaperAccount) (stopped : Bool) (reason : Option String)
    (pending : ReconciliationPending) (last : Option Timestamp) : RiskAccountView where
  availableBalance := account.availableBalance
  openSymbols := account.positions.map fun p => p.symbol
  openPositionCount := account.positions.length
  totalNotional := (account.positions.map fun p => p.notional).sum
  sessionRealizedPnl := account.session.realizedPnl
  dailyProfitTarget := account.session.profitTarget
  dailyLossLimit := account.session.lossLimit
  lockState := account.session.lockState
  lockReason := account.session.lockReason
  emergencyStopped := stopped
  emergencyReason := reason
  modeEnabled := service.paperEnabled
  unreconciledOrders := pending.count
  unreconciledDetail := some pending.detail
  lastEntryAt := last

theorem accountView_eq (service : PaperTradingService) (account : PaperAccount) (symbol : String)
    (pending : ReconciliationPending) : service.accountView account symbol pending = do
      let (stopped, reason) ← perform .emergency
      let last ← perform (.lastEntryAt symbol)
      return viewOf service account stopped reason pending last := rfl

/-- Engine and service are given the same limits, from one configuration. -/
structure Configured (service : PaperTradingService) (config : PaperEngineConfig) : Prop where
  openPositions : config.maxOpenPositions = service.maxOpenPositions
  notional : config.maxPositionNotional = service.maxPositionNotional
  exposure : config.maxPortfolioExposure = service.maxPortfolioExposure
  dataAge : config.maxDataAgeSeconds = service.maxDataAgeSeconds

variable {config : PaperEngineConfig} {service : PaperTradingService} {now : Timestamp} {marks : Marks}
  {r t : Repository} {account : PaperAccount}

theorem Looked.symbols (h : Looked config now marks r account t) (hkeyed : Keyed (ledger t)) :
    account.positions.map (fun p => p.symbol) = t.state.positions.keys := by
  obtain ⟨session, _, rfl⟩ := h.answer
  change (t.state.positions.values.map (positionModel config now marks)).map _ = _
  rw [List.map_map, Dict.values, List.map_map, Dict.keys]
  refine List.map_congr_left fun e he => ?_
  change (positionModel config now marks e.2).toEntryTerms.symbol = e.1
  rw [positionModel_terms]
  exact hkeyed (e.1, e.2.toEntryTerms) (List.mem_map_of_mem (f := fun e => (e.1, e.2.toEntryTerms)) he)

theorem Looked.count (h : Looked config now marks r account t) : account.positions.length = t.state.positions.size := by
  obtain ⟨session, _, rfl⟩ := h.answer
  change (t.state.positions.values.map (positionModel config now marks)).length = _
  rw [List.length_map, Dict.values, List.length_map]
  rfl

theorem Looked.total (h : Looked config now marks r account t) :
    (account.positions.map fun p => p.notional).sum = exposure t.state := by
  obtain ⟨session, _, rfl⟩ := h.answer
  change ((t.state.positions.values.map (positionModel config now marks)).map _).sum = _
  rw [List.map_map, exposure, Dict.total]
  refine congrArg List.sum (List.map_congr_left fun p _ => ?_)
  exact congrArg EntryTerms.notional (positionModel_terms _ _ _ p)

theorem Looked.lock (h : Looked config now marks r account t) :
    ∀ s ∈ t.state.session, s.lockState = account.session.lockState := by
  obtain ⟨session, hsession, rfl⟩ := h.answer
  intro s hs
  rw [hsession] at hs
  obtain rfl := Option.some.inj hs
  rfl

end Gate

section Sizes

variable {request : SubmitOrderRequest} {price l m q notional : Decimal} {f : SymbolFilters} {symbol : String}

theorem resolveQuantity_listed (hmargin : request.margin = some m) (hquantity : request.quantity = none) :
    resolveQuantity request price l (some f) = .ok q ↔
      price ≠ 0 ∧ q = truncDiv (m * l / price) f.stepSize * f.stepSize ∧ 0 < q ∧ f.minQuantity ≤ q ∧
      ∀ most ∈ f.maxQuantity, q ≤ most := by
  simp only [resolveQuantity, requestedQuantity, hmargin, hquantity, bind_ok, divided_ok, declining_ok, toStep,
    mapError_ok, floorToStep_ok, refusing_eq_none, and_true, not_le, not_and, not_lt]
  constructor
  · rintro ⟨_, ⟨hprice, rfl⟩, _, ⟨_, rfl⟩, _, hpos, _, hleast, _, hmost, hresult⟩
    cases hresult
    refine ⟨hprice, rfl, hpos, ?_, fun most hm => ?_⟩
    · exact (le_or_gt f.minQuantity 0).elim (fun h => h.trans hpos.le) hleast
    · rw [hm] at hmost
      simpa using hmost
  · rintro ⟨hprice, rfl, hpos, hleast, hmost⟩
    refine ⟨_, ⟨hprice, rfl⟩, _, ⟨f.step_pos, rfl⟩, (), hpos, (), fun _ => hleast, (), ?_, rfl⟩
    cases hm : f.maxQuantity with
    | none => simp
    | some most => simpa using hmost most hm

theorem belowMinNotional_listed :
    belowMinNotional symbol (some f) notional = none ↔ ∀ least ∈ f.minNotional, least ≤ notional := by
  cases hleast : f.minNotional with
  | none => simp [belowMinNotional, hleast]
  | some least => simp [belowMinNotional, hleast, refusing_eq_none]

/-- A size that the filters let through is what a margin buys exactly where the
margin covers it, and not a step more. -/
theorem resolveQuantity_refits (hmargin : request.margin = some m) (hquantity : request.quantity = none)
    (hsized : Listed f price q notional) (hnonneg : 0 ≤ m * l) (hprice : 0 < price) :
    resolveQuantity request price l (some f) = .ok q ↔
      q * price ≤ m * l ∧ m * l < (q + f.stepSize) * price ∧ ∀ most ∈ f.maxQuantity, q ≤ most := by
  obtain ⟨n, hn⟩ := hsized.stepped
  have hquotient : 0 ≤ m * l / price := div_nonneg hnonneg hprice.le
  have hsame : q = truncDiv (m * l / price) f.stepSize * f.stepSize ↔
      q * price ≤ m * l ∧ m * l < (q + f.stepSize) * price := by
    rw [hn, eq_comm, truncDiv_eq_iff f.step_pos hquotient n, le_div_iff₀ hprice, div_lt_iff₀ hprice]
  rw [resolveQuantity_listed hmargin hquantity, hsame]
  constructor
  · rintro ⟨_, ⟨hcovered, hshort⟩, _, _, hmost⟩
    exact ⟨hcovered, hshort, hmost⟩
  · rintro ⟨hcovered, hshort, hmost⟩
    exact ⟨hprice.ne', ⟨hcovered, hshort⟩, hsized.positive, hsized.least, hmost⟩

end Sizes

section Submissions

variable [Runtime] {config : PaperEngineConfig} {service : PaperTradingService} {request : SubmitOrderRequest}
  {requestedLeverage : Decimal} {origin : String} {now : Timestamp} {mark : MarkPrice} {marks : Marks}
  {view : RiskAccountView} {volatility : VolatilityMeasurement} {listed : Listing} {verdict : RiskVerdict}
  {r t : Repository} {account : PaperAccount} {price l m q notional : Decimal} {source : String}

/-- The percentages that the risk engine does not rule on, and the one it does. -/
structure Percents (request : SubmitOrderRequest) : Prop where
  stop : ∀ p ∈ request.stopLossPercent, 0 < p ∧ p < 100
  takeProfit : ∀ p ∈ request.takeProfitPercent, 0 < p ∧ p < 100
  trailing : ∀ p ∈ request.trailingStopPercent, 0 < p ∧ p < 100

/-- The rounded margin buys the size again, and the gate's own limits let it through. -/
structure Refits (state : PaperState) (request : SubmitOrderRequest) (f : SymbolFilters) (price m l q : Decimal) :
    Prop where
  positive : 0 < m
  covered : q * price ≤ m * l
  short : m * l < (q + f.stepSize) * price
  most : ∀ most ∈ f.maxQuantity, q ≤ most
  funded : m ≤ availableBalance state
  percents : Percents request

/-- An approval of a proposal of the service on an account it looked at. -/
structure Approval (config : PaperEngineConfig) (service : PaperTradingService) (request : SubmitOrderRequest)
    (now : Timestamp) (mark : MarkPrice) (listed : Listing) (verdict : RiskVerdict) (t : Repository)
    (price l notional q : Decimal) : Prop where
  opened : Opened now t
  reportable : Reportable t.state
  enabled : service.paperEnabled = true
  running : t.state.emergencyStopped = false
  unlocked : ∀ s ∈ t.state.session, s.lockState = .none
  fresh : mark.status = .ok ∧ ∃ a, mark.ageSeconds = some a ∧ a ≤ config.maxDataAgeSeconds
  usable : verdict.leverage.isUsable = true
  priced : mark.lastPrice = some price
  free : Runtime.upper request.symbol ∉ t.state.positions.keys
  slots : (t.state.positions.size : Int) < config.maxOpenPositions
  notional_le : notional ≤ config.maxPositionNotional
  exposure_le : exposure t.state + notional ≤ config.maxPortfolioExposure
  leverage : verdict.leverage.approvedLeverage = some l
  margin : verdict.approvedMargin = some (quantizeUsdt (notional / l))
  quantity : verdict.approvedQuantity = some q
  listed : Listed listed.filters price q notional
  one_le : 1 ≤ l
  price_pos : 0 < price

theorem approval_of_evaluate (hconfigured : Configured service config) (hkeyed : Keyed (ledger t))
    (hupper : Runtime.upper (Runtime.upper request.symbol) = Runtime.upper request.symbol)
    (hlooked : Looked config now marks r account t) {reason : Option String} {pending : ReconciliationPending}
    {last : Option Timestamp}
    (hverdict : evaluate (proposal request (Runtime.upper request.symbol) mark requestedLeverage)
      (viewOf service account t.state.emergencyStopped reason pending last) (marketView mark volatility listed)
      (service.policy origin) now = .ok verdict)
    (happroved : verdict.approved = true) :
    ∃ price l notional q, Approval config service request now mark listed verdict t price l notional q := by
  obtain ⟨price, l, notional, hcleared, hmeasured⟩ := evaluate_measured hverdict happroved
  obtain ⟨q, hq, hlisted⟩ := hmeasured.listed listed.filters rfl
  obtain ⟨henabled, hrunning, _, hlock⟩ := hcleared.authority
  obtain ⟨hstatus, hlast, age, hage, hfresh⟩ := hcleared.data
  obtain ⟨hfree, hslots⟩ := hcleared.slots
  obtain ⟨_, _, hpermitted⟩ := hcleared.leverage
  change Runtime.upper (Runtime.upper request.symbol) ∉ account.positions.map (fun p => p.symbol) at hfree
  change (account.positions.length : Int) < service.maxOpenPositions at hslots
  have hexposure : (account.positions.map fun p => p.notional).sum + notional ≤ service.maxPortfolioExposure :=
    hcleared.exposure.2
  rw [hupper, hlooked.symbols hkeyed] at hfree
  rw [hlooked.count, ← hconfigured.openPositions] at hslots
  rw [hlooked.total, ← hconfigured.exposure] at hexposure
  exact ⟨price, l, notional, q, {
    opened := hlooked.opened
    reportable := hlooked.reportable
    enabled := henabled
    running := hrunning
    unlocked := fun s hs => (hlooked.lock s hs).trans hlock
    fresh := ⟨hstatus, age, hage, hconfigured.dataAge.symm ▸ hfresh⟩
    usable := hmeasured.usable
    priced := hlast
    free := hfree
    slots := hslots
    notional_le := hconfigured.notional.symm ▸ hcleared.exposure.1
    exposure_le := hexposure
    leverage := hcleared.approvedLeverage
    margin := hcleared.approvedMargin
    quantity := hq
    listed := hlisted
    one_le := hpermitted.min
    price_pos := hcleared.price_pos listed.filters rfl }⟩

/-- The request as the service passes it on once it is approved. -/
abbrev approvedRequest (request : SubmitOrderRequest) (verdict : RiskVerdict) : SubmitOrderRequest :=
  { request with margin := verdict.approvedMargin, quantity := none }

omit [Runtime] in
theorem onDay_opened (h : Opened now t) : onDay config now t = t := by
  obtain ⟨s, hs⟩ := ensureSession_opened config h
  rw [onDay, hs]

omit [Runtime] in
theorem notional_pos_of_margin (hone : 1 ≤ l) (hmargin : 0 < quantizeUsdt (notional / l)) : 0 < notional := by
  have hhalf : 1 / (2 * usdtUnits) ≤ notional / l := quantizeUsdt_pos_iff.mp hmargin
  have hunit : (0 : Decimal) < 1 / (2 * usdtUnits) := by norm_num [usdtUnits]
  by_contra hnotional
  have hquotient : notional / l ≤ 0 := div_nonpos_of_nonpos_of_nonneg (not_lt.mp hnotional) (by linarith)
  linarith

omit [Runtime] in
theorem validateSizing_approved (hmargin : verdict.approvedMargin = some m) :
    validateSizing (approvedRequest request verdict) = none ↔ 0 < m ∧ Percents request := by
  rw [validateSizing_eq_none]
  simp only [hmargin, Option.isNone_none, Option.isNone_some, Option.mem_def, reduceCtorEq, IsEmpty.forall_iff,
    Option.some.injEq, forall_eq', implies_true, true_and, ne_eq, Bool.true_eq_false, not_false_eq_true]
  constructor
  · rintro ⟨hpos, hstop, htake, htrail⟩
    exact ⟨hpos, hstop, htake, htrail⟩
  · rintro ⟨hpos, h⟩
    exact ⟨hpos, h.stop, h.takeProfit, h.trailing⟩

section Decided

variable (h : Approval config service request now mark listed verdict t price l notional q)
include h

theorem Approval.gate_eq_none :
    checkEntry config t.state service.paperEnabled (Runtime.upper request.symbol) q notional
        (quantizeUsdt (notional / l)) mark verdict.leverage = none ↔
      0 < notional ∧ quantizeUsdt (notional / l) ≤ availableBalance t.state := by
  rw [checkEntry_eq_none, checkAuthority_eq_none, checkMarketData_eq_none]
  constructor
  · rintro ⟨_, _, _, hadmitted⟩
    exact ⟨hadmitted.notional_pos, hadmitted.funded⟩
  · rintro ⟨hpos, hfunded⟩
    exact ⟨⟨h.enabled, h.running, h.unlocked⟩, h.fresh, h.usable, {
      running := h.running
      unlocked := h.unlocked
      quantity_pos := h.listed.positive
      notional_pos := hpos
      notional_le := h.notional_le
      free := h.free
      slots := h.slots
      exposure_le := h.exposure_le
      funded := hfunded }⟩

omit h in
theorem Approval.usable_mark (h : Approval config service request now mark listed verdict t price l notional q) :
    mark.isUsable = true := by
  rw [MarkPrice.isUsable, h.fresh.1, h.priced]
  rfl

theorem Approval.approvedLeverage_ok : approvedLeverage verdict.leverage = .ok l := by
  rw [approvedLeverage, if_neg (by simp [h.usable]), h.leverage]

theorem Approval.resolved_iff (hpos : 0 < quantizeUsdt (notional / l)) :
    resolveQuantity (approvedRequest request verdict) price l (some listed.filters) = .ok q ↔
      q * price ≤ quantizeUsdt (notional / l) * l ∧ quantizeUsdt (notional / l) * l < (q + listed.filters.stepSize) * price ∧
      ∀ most ∈ listed.filters.maxQuantity, q ≤ most := by
  have hl : 0 ≤ l := by linarith [h.one_le]
  exact resolveQuantity_refits h.margin rfl h.listed (mul_nonneg hpos.le hl) h.price_pos

variable (hprice : fillPrice mark (request.side = .buy) config.slippageBps = .ok (price, source))
include hprice

theorem Approval.decided (hfit : Refits t.state request listed.filters price (quantizeUsdt (notional / l)) l q) :
    decisionOn config t (approvedRequest request verdict) now mark (some listed.filters) verdict.leverage
      service.paperEnabled = .ok ⟨price, source, q, notional, quantizeUsdt (notional / l), l⟩ := by
  have hl : l ≠ 0 := by linarith [h.one_le]
  have hnotional : 0 < notional := notional_pos_of_margin h.one_le hfit.positive
  rw [decisionOn, onDay_opened h.opened]
  exact considerOrder_iff.mpr ⟨h.usable_mark, (validateSizing_approved h.margin).mpr ⟨hfit.positive, hfit.percents⟩,
    h.approvedLeverage_ok, hprice, (h.resolved_iff hfit.positive).mpr ⟨hfit.covered, hfit.short, hfit.most⟩,
    h.listed.notional_eq, hl, rfl, belowMinNotional_listed.mpr h.listed.worth,
    h.gate_eq_none.mpr ⟨hnotional, hfit.funded⟩⟩

/-- What the gate lets through at the approved size refits. -/
theorem Approval.refits {entry : Entry} (hentry : decisionOn config t (approvedRequest request verdict) now mark
      (some listed.filters) verdict.leverage service.paperEnabled = .ok entry) (hq : entry.quantity = q) :
    Refits t.state request listed.filters price (quantizeUsdt (notional / l)) l q := by
  rw [decisionOn, onDay_opened h.opened] at hentry
  obtain ⟨_, hsizing, happroved, hfill, hquantity, hnotional, _, hm, _, hgate⟩ := considerOrder_iff.mp hentry
  obtain ⟨hpos, hpercents⟩ := (validateSizing_approved h.margin).mp hsizing
  obtain rfl : entry.approvedLeverage = l := Except.ok.inj (happroved.symm.trans h.approvedLeverage_ok)
  obtain ⟨rfl, rfl⟩ : price = entry.price ∧ source = entry.priceSource :=
    Prod.mk.inj (Except.ok.inj (hprice.symm.trans hfill))
  rw [hq] at hquantity hnotional hgate
  obtain rfl : notional = entry.notional := h.listed.notional_eq.trans hnotional.symm
  rw [hm, h.gate_eq_none] at hgate
  obtain ⟨hcovered, hshort, hmost⟩ := (h.resolved_iff hpos).mp hquantity
  exact ⟨hpos, hcovered, hshort, hmost, hgate.2, hpercents⟩

end Decided

/-- The call is accepted, and afterwards a position of the size is open where none was. -/
def Fills (config : PaperEngineConfig) (op : Operation) (t : Repository) (symbol : String) (q : Decimal) : Prop :=
  ∃ x result u, ordering config op = some x ∧ x.run t = (.ok result, u) ∧ result.accepted = true ∧
    symbol ∉ t.state.positions.keys ∧ ∃ p ∈ u.state.positions.get? symbol, p.quantity = q

/-- What a call that fills decided on. -/
theorem decided_of_fills {asked : SubmitOrderRequest} {filters : Option SymbolFilters} {leverage : LeverageDecision}
    {paperEnabled : Bool} {detail : Option String} {checks : List String} {riskMax : Option Decimal}
    (hreport : Reportable t.state)
    (h : Fills config (.submitOrder asked now mark filters leverage paperEnabled marks detail checks riskMax) t
      (Runtime.upper asked.symbol) q) :
    repeated t asked = none ∧ ∃ entry, decisionOn config t asked now mark filters leverage paperEnabled = .ok entry ∧
      entry.quantity = q := by
  obtain ⟨x, result, u, hx, hrun, haccepted, hfree, p, hp, hq⟩ := h
  obtain rfl := Option.some.inj hx
  have hstays : (identified config now asked t).state.positions = t.state.positions := onDay_positions _ _ _
  have hgone : t.state.positions.get? (Runtime.upper asked.symbol) = none := Dict.get?_eq_none.mpr hfree
  cases hknown : repeated t asked with
  | some existing =>
      obtain ⟨_, hreplayed, _⟩ := submitOrder_replayed config now marks mark filters leverage paperEnabled detail
        checks riskMax hreport hknown
      obtain ⟨_, rfl⟩ := Prod.mk.inj (hreplayed.symm.trans hrun)
      rw [hstays, hgone] at hp
      exact nomatch hp
  | none =>
      rw [submitOrder_decided _ _ _ _ _ _ _ _ _ _ _ hknown] at hrun
      refine ⟨rfl, ?_⟩
      have hopened' : Opened now (identified config now asked t) := (ensureSession_ok _ _ t).choose_spec.2
      have hreport' : Reportable (identified config now asked t).state :=
        reportable_withSequence (reportable_onDay _ _ hreport)
      match hdecision : decisionOn config t asked now mark filters leverage paperEnabled with
      | .error (.refused refusal) | .error (.ruled refusal) =>
          rw [hdecision] at hrun
          obtain ⟨result', hrejected, hrefused, _⟩ := reject_run config
            (marks.setDefault (Runtime.upper asked.symbol) mark) _ hopened' hreport'
            (Runtime.upper asked.symbol) asked (submittedId asked (onDay config now t).state.sequence) refusal false _
          obtain ⟨hresult, _⟩ := Prod.mk.inj (hrejected.symm.trans hrun)
          obtain rfl := Except.ok.inj hresult
          exact nomatch hrefused.symm.trans haccepted
      | .error (.raised e) =>
          rw [hdecision] at hrun
          exact nomatch (Prod.mk.inj hrun).1
      | .ok entry =>
          rw [hdecision] at hrun
          refine ⟨entry, rfl, ?_⟩
          have hfree' : Runtime.upper asked.symbol ∉ (identified config now asked t).state.positions.keys := by
            rw [hstays]
            exact hfree
          obtain ⟨_, _, hreports⟩ := openPosition_returned (congrArg Prod.fst hrun)
          obtain ⟨_, orderId, positionId, hran, _⟩ := openPosition_run config
            (marks.setDefault (Runtime.upper asked.symbol) mark) _ hopened' hreport' asked
            (submittedId asked (onDay config now t).state.sequence) leverage mark.ageSeconds detail
            ⟨some leverage, checks, riskMax⟩ hfree' ⟨hreports.quantity, hreports.entryPrice, hreports.notional, hreports.margin, hreports.leverage,
              hreports.entryFee⟩
          obtain ⟨_, rfl⟩ := Prod.mk.inj (hran.symm.trans hrun)
          obtain rfl := Option.some.inj ((Dict.get?_set_self ..).symm.trans hp)
          exact hq

theorem Approval.fills_iff (h : Approval config service request now mark listed verdict t price l notional q)
    (hfee : 0 ≤ config.takerFeeBps)
    (hprice : fillPrice mark (request.side = .buy) config.slippageBps = .ok (price, source)) :
    Fills config (approvedCall service request now mark listed marks verdict) t (Runtime.upper request.symbol) q ↔
      repeated t request = none ∧ Refits t.state request listed.filters price (quantizeUsdt (notional / l)) l q := by
  constructor
  · intro hfills
    obtain ⟨hnew, entry, hentry, hq⟩ := decided_of_fills h.reportable hfills
    exact ⟨hnew, h.refits hprice hentry hq⟩
  · rintro ⟨hnew, hfit⟩
    have hopened : Opened now (identified config now (approvedRequest request verdict) t) :=
      (ensureSession_ok _ _ t).choose_spec.2
    have hreport : Reportable (identified config now (approvedRequest request verdict) t).state :=
      reportable_withSequence (reportable_onDay _ _ h.reportable)
    have hfree : Runtime.upper request.symbol ∉
        (identified config now (approvedRequest request verdict) t).state.positions.keys := by
      change _ ∉ (onDay config now t).state.positions.keys
      rw [onDay_positions]
      exact h.free
    have hcharge : 0 ≤ entryFee config ⟨price, source, q, notional, quantizeUsdt (notional / l), l⟩ :=
      quantizeUsdt_nonneg (div_nonneg (mul_nonneg (notional_pos_of_margin h.one_le hfit.positive).le hfee)
        (by norm_num [bps]))
    have hbookable : Bookable config ⟨price, source, q, notional, quantizeUsdt (notional / l), l⟩ :=
      ⟨h.listed.positive, h.price_pos, notional_pos_of_margin h.one_le hfit.positive, hfit.positive, h.one_le, hcharge⟩
    obtain ⟨result, orderId, positionId, hrun, haccepted, _⟩ := openPosition_run config
      (marks.setDefault (Runtime.upper request.symbol) mark) _ hopened hreport (approvedRequest request verdict)
      (submittedId (approvedRequest request verdict) (onDay config now t).state.sequence) verdict.leverage
      mark.ageSeconds (some verdict.detail) ⟨some verdict.leverage, verdict.checksPerformed, verdict.riskMaxLeverage⟩
      hfree hbookable
    have hran := submitOrder_decided config now marks (approvedRequest request verdict) mark
      (some listed.filters) verdict.leverage service.paperEnabled (some verdict.detail) verdict.checksPerformed
      verdict.riskMaxLeverage (r := t) hnew
    rw [h.decided hprice hfit] at hran
    exact ⟨_, result, _, rfl, hran.trans hrun, haccepted, h.free, _, Dict.get?_set_self .., rfl⟩

/-- An order approved on an account and submitted at the price it was approved at
is filled at the approved size exactly where the rounded margin buys that size
again, the gate's own limits admit it, and it is no repetition. -/
theorem approval_fills_iff (config : PaperEngineConfig) (service : PaperTradingService) (startingBalance : Decimal)
    (began : Timestamp) (durability : Durability) (calls : List Call) (request : SubmitOrderRequest)
    (requestedLeverage : Decimal) (origin : String) (now : Timestamp) (marks : Marks) (mark : MarkPrice)
    (volatility : VolatilityMeasurement) (listed : Listing) (reason : Option String) (pending : ReconciliationPending)
    (last : Option Timestamp) (account : PaperAccount) (t : Repository) (verdict : RiskVerdict) (price : Decimal)
    (source : String) (hconfigured : Configured service config) (hfee : 0 ≤ config.takerFeeBps)
    (hupper : Runtime.upper (Runtime.upper request.symbol) = Runtime.upper request.symbol)
    (hlooked : (PaperEngine.snapshot config now marks).run
      (runCalls config (opening startingBalance began durability) calls) = (.ok account, t))
    (hverdict : evaluate (proposal request (Runtime.upper request.symbol) mark requestedLeverage)
      (viewOf service account t.state.emergencyStopped reason pending last) (marketView mark volatility listed)
      (service.policy origin) now = .ok verdict)
    (happroved : verdict.approved = true) (hlast : mark.lastPrice = some price)
    (hprice : fillPrice mark (request.side = .buy) config.slippageBps = .ok (price, source)) :
    ∃ q ∈ verdict.approvedQuantity, ∃ l ∈ verdict.leverage.approvedLeverage, ∃ m ∈ verdict.approvedMargin,
      (Fills config (approvedCall service request now mark listed marks verdict) t (Runtime.upper request.symbol) q ↔
        repeated t request = none ∧ Refits t.state request listed.filters price m l q) := by
  have hlook := looked_of_snapshot hlooked
  have hkeyed : Keyed (ledger t) := by
    have hcall := keyed_calls config startingBalance began durability (calls ++ [.keep (.snapshot now marks)])
    rw [runCalls, List.foldl_append] at hcall
    have hleft : after config (runCalls config (opening startingBalance began durability) calls) (.snapshot now marks) =
        t := congrArg Prod.snd hlooked
    rw [← hleft]
    exact hcall
  obtain ⟨price', l, notional, q, h⟩ := approval_of_evaluate hconfigured hkeyed hupper hlook hverdict happroved
  obtain rfl : price = price' := Option.some.inj (hlast.symm.trans h.priced)
  exact ⟨q, h.quantity, l, h.leverage, _, h.margin, h.fills_iff hfee hprice⟩

end Submissions

section Examples

def looked : Except PaperError PaperAccount × Repository :=
  (PaperEngine.snapshot exampleConfig 0 .empty).run (@runCalls referenceRuntime exampleConfig (opening 1000 0 .inMemory) [])

def exampleListed : Listing := ⟨exampleFilters, some 20⟩

def calm : VolatilityMeasurement := ⟨.measured, some 2, none⟩

/-- With a stop at five per cent three times is within the day's budget. -/
def asking (margin : Decimal) : SubmitOrderRequest :=
  { symbol := "BTCUSDT", side := .buy, margin := some margin, stopLossPercent := some 5 }

def ruledOn (margin : Decimal) (account : PaperAccount) : Except EvaluateError RiskVerdict :=
  @evaluate referenceRuntime (proposal (asking margin) (@Runtime.upper referenceRuntime "BTCUSDT") exampleMark 3)
    (viewOf exampleService account false none ⟨0, ""⟩ none) (marketView exampleMark calm exampleListed)
    (exampleService.policy "manual") 0

def rulesOn (margin : Decimal) (p : Repository → RiskVerdict → Bool) : Bool :=
  match looked with
  | (.ok account, t) => (ruledOn margin account).toOption.any (p t)
  | (.error _, _) => false

theorem exists_ruled (margin : Decimal) {p : Repository → RiskVerdict → Bool} (h : rulesOn margin p = true) :
    ∃ account t verdict, looked = (.ok account, t) ∧ ruledOn margin account = .ok verdict ∧ p t verdict = true := by
  unfold rulesOn at h
  cases hlooked : looked with
  | mk answer t =>
      rw [hlooked] at h
      cases answer with
      | error e => cases h
      | ok account =>
          dsimp only at h
          cases hruled : ruledOn margin account with
          | error e =>
              rw [hruled] at h
              cases h
          | ok verdict =>
              rw [hruled] at h
              exact ⟨account, t, verdict, rfl, hruled, h⟩

/-- The size that is held once the approval was submitted. -/
def heldAfter (margin : Decimal) (t : Repository) (verdict : RiskVerdict) : Option Decimal :=
  let u := @after referenceRuntime exampleConfig t
    (approvedCall exampleService (asking margin) 0 exampleMark exampleListed .empty verdict)
  (u.state.positions.get? "BTCUSDT").map fun p => p.quantity

theorem configured_example : Configured exampleService exampleConfig := ⟨rfl, rfl, rfl, rfl⟩

/-- A margin of 3.4 at three times is a whole number of steps. -/
theorem approval_fills_iff_example : ∃ account t verdict,
    looked = (.ok account, t) ∧ ruledOn (34 / 10) account = .ok verdict ∧
    ∃ q ∈ verdict.approvedQuantity, ∃ l ∈ verdict.leverage.approvedLeverage, ∃ m ∈ verdict.approvedMargin,
      (@Fills referenceRuntime exampleConfig
          (approvedCall exampleService (asking (34 / 10)) 0 exampleMark exampleListed .empty verdict) t "BTCUSDT" q ↔
        repeated t (asking (34 / 10)) = none ∧ Refits t.state (asking (34 / 10)) exampleFilters 100 m l q) := by
  obtain ⟨account, t, verdict, hlooked, hverdict, h⟩ := exists_ruled (34 / 10)
    (p := fun t verdict => verdict.approved && !t.state.emergencyStopped) (by decide +kernel)
  rw [Bool.and_eq_true, Bool.not_eq_true'] at h
  have hview : @evaluate referenceRuntime
      (proposal (asking (34 / 10)) (@Runtime.upper referenceRuntime "BTCUSDT") exampleMark 3)
      (viewOf exampleService account t.state.emergencyStopped none ⟨0, ""⟩ none)
      (marketView exampleMark calm exampleListed) (exampleService.policy "manual") 0 = .ok verdict := by
    rw [h.2]
    exact hverdict
  have hsymbol : @Runtime.upper referenceRuntime "BTCUSDT" = "BTCUSDT" := by decide +kernel
  refine ⟨account, t, verdict, hlooked, hverdict, ?_⟩
  have hfills := @approval_fills_iff referenceRuntime exampleConfig exampleService 1000 0 .inMemory []
    (asking (34 / 10)) 3 "manual" 0 .empty exampleMark calm exampleListed none ⟨0, ""⟩ none account t verdict 100
    "venue:best_ask" configured_example (by norm_num [exampleConfig]) (by decide +kernel) hlooked hview h.1 rfl
    (by decide +kernel)
  rw [show (asking (34 / 10)).symbol = "BTCUSDT" from rfl, hsymbol] at hfills
  exact hfills

example : rulesOn (34 / 10) (fun t verdict => verdict.approvedQuantity = some (102 / 1000) &&
    heldAfter (34 / 10) t verdict = some (102 / 1000)) = true := by decide +kernel

/-- A third of ten, rounded down and taken three times, is short of ten: of the
hundred steps that were approved one is lost. -/
theorem step_lost : ¬ ∀ (config : PaperEngineConfig) (service : PaperTradingService) (startingBalance : Decimal)
    (began : Timestamp) (durability : Durability) (calls : List Call) (request : SubmitOrderRequest)
    (requestedLeverage : Decimal) (origin : String) (now : Timestamp) (marks : Marks) (mark : MarkPrice)
    (volatility : VolatilityMeasurement) (listed : Listing) (reason : Option String) (pending : ReconciliationPending)
    (last : Option Timestamp) (account : PaperAccount) (t : Repository) (verdict : RiskVerdict) (price : Decimal)
    (source : String), Configured service config → 0 ≤ config.takerFeeBps →
    (PaperEngine.snapshot config now marks).run
      (@runCalls referenceRuntime config (opening startingBalance began durability) calls) = (.ok account, t) →
    @evaluate referenceRuntime (proposal request (@Runtime.upper referenceRuntime request.symbol) mark requestedLeverage)
      (viewOf service account t.state.emergencyStopped reason pending last) (marketView mark volatility listed)
      (service.policy origin) now = .ok verdict →
    verdict.approved = true → mark.lastPrice = some price →
    fillPrice mark (request.side = .buy) config.slippageBps = .ok (price, source) →
    repeated t request = none →
    ∃ q ∈ verdict.approvedQuantity, @Fills referenceRuntime config
      (approvedCall service request now mark listed marks verdict) t (@Runtime.upper referenceRuntime request.symbol) q := by
  intro hclaim
  obtain ⟨account, t, verdict, hlooked, hverdict, h⟩ := exists_ruled (334 / 100)
    (p := fun t verdict => verdict.approved && !t.state.emergencyStopped && (repeated t (asking (334 / 100))).isNone &&
      (verdict.approvedQuantity = some (1 / 10)) && (heldAfter (334 / 100) t verdict = some (99 / 1000)))
    (by decide +kernel)
  simp only [Bool.and_eq_true, Bool.not_eq_true', decide_eq_true_eq, Option.isNone_iff_eq_none] at h
  obtain ⟨⟨⟨⟨happroved, hrunning⟩, hnew⟩, hquantity⟩, hheld⟩ := h
  have hfills := hclaim exampleConfig exampleService 1000 0 .inMemory [] (asking (334 / 100)) 3 "manual" 0 .empty
    exampleMark calm exampleListed none ⟨0, ""⟩ none account t verdict 100 "venue:best_ask" configured_example
    (by norm_num [exampleConfig]) hlooked (by rw [hrunning]; exact hverdict) happroved rfl (by decide +kernel) hnew
  obtain ⟨q, hq, x, result, u, hx, hrun, _, _, p, hp, rfl⟩ := hfills
  obtain rfl := Option.some.inj hx
  have hafter : u = @after referenceRuntime exampleConfig t
      (approvedCall exampleService (asking (334 / 100)) 0 exampleMark exampleListed .empty verdict) :=
    (congrArg Prod.snd hrun).symm
  have hsymbol : @Runtime.upper referenceRuntime (asking (334 / 100)).symbol = "BTCUSDT" := by decide +kernel
  rw [hsymbol] at hp
  have hsame : heldAfter (334 / 100) t verdict = some p.quantity := by
    rw [heldAfter, ← hafter, hp]
    rfl
  have hlost : (1 / 10 : Decimal) = 99 / 1000 := by
    rw [hquantity] at hq
    rw [hheld] at hsame
    exact (Option.some.inj hq).trans (Option.some.inj hsame).symm
  norm_num at hlost

end Examples

end Aetheris.PaperSizing
