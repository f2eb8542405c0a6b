import Aetheris.PaperGate

namespace Aetheris.PaperPricing

open Lib Money Clock Enums Leverage RiskEngine PaperRecords PaperGate

inductive PaperError
  | validation (record : String)
  | divisionByZero
  | value (message : String)
  deriving DecidableEq

def bps : Decimal := 10000

def usdtExponent : Decimal := 1 / 100000000

def fillPrice (mark : MarkPrice) (sideIsBuy : Bool) (slippageBps : Decimal) :
    Except PaperError (Decimal × String) :=
  let source := mark.source
  let symbol := mark.symbol
  let slip := str slippageBps
  let book := if sideIsBuy then "best_ask" else "best_bid"
  match (if sideIsBuy then mark.askPrice else mark.bidPrice).filter (fun p => decide (0 < p)) with
  | some price => .ok (price, s!"{source}:{book}")
  | none =>
      match mark.lastPrice with
      | none => .error (.value s!"{symbol} has no usable price to fill against")
      | some last =>
          let adjustment := slippageBps / bps
          let factor := if sideIsBuy then 1 + adjustment else 1 - adjustment
          .ok (last * factor, s!"{source}:last_price+{slip}bps_slippage")

def liquidationPrice (entry leverage : Decimal) (isLong : Bool) : Option Decimal :=
  let move := entry / leverage
  let level := if isLong then entry - move else entry + move
  if 0 < level then some level else none

/-- The level a given percentage from a price, on the side asked for. -/
def levelAt (price percent : Decimal) (above : Bool) : Decimal :=
  let move := price * percent / 100
  if above then price + move else price - move

def positive (value : Option Decimal) : Option Decimal := value.filter (fun v => decide (0 < v))

def captureThesis (request : SubmitOrderRequest) (side : PositionSide) (entryPrice : Decimal)
    (stop target : Option Decimal) (quantity : Decimal) (now : Timestamp) : PositionThesis :=
  let riskPerUnit := positive (stop.map fun s => |entryPrice - s|)
  let rewardPerUnit := positive (target.map fun t => |t - entryPrice|)
  { status := if request.strategyContext.isSome then .captured else .noStrategyContext
    capturedAt := now
    side := side
    entryPrice := entryPrice
    stopPrice := stop
    targetPrice := target
    plannedRiskPerUnit := riskPerUnit
    plannedRiskTotal := positive (riskPerUnit.map fun r => quantizeUsdt (r * quantity))
    plannedRewardPerUnit := rewardPerUnit
    riskRewardRatio := riskPerUnit.bind fun risk => rewardPerUnit.map fun reward => reward / risk
    strategy := request.strategyContext
    detail := if request.strategyContext.isSome then none else some
      ("Submitted directly, with no rule set behind it. Strategy fields are " ++
        "absent rather than zero, and thesis alignment cannot be measured for " ++
        "this position.") }

def further (old : Option Decimal) (price : Decimal) (up : Bool) : Option Decimal :=
  match old with
  | none => some price
  | some o => if (up ∧ o < price) ∨ (¬up ∧ price < o) then some price else some o

def recordExcursion (p : MutablePosition) (price : Decimal) : MutablePosition :=
  if price ≤ 0 then p
  else { p with
    bestPrice := further p.bestPrice price p.isLong
    worstPrice := further p.worstPrice price (!p.isLong) }

def trailingLevel (p : MutablePosition) : Option Decimal :=
  p.trailingStopPercent.bind fun percent => p.trailExtreme.map fun extreme =>
    let move := extreme * percent / 100
    if p.isLong then extreme - move else extreme + move

def advanceTrail (price : Decimal) (p : MutablePosition) : MutablePosition :=
  if p.trailingStopPercent.isNone then p
  else match p.trailExtreme with
    | none => { p with trailExtreme := some price }
    | some extreme => { p with trailExtreme := some (if p.isLong then max extreme price else min extreme price) }

def reached (isLong : Bool) (price : Decimal) (level : Option Decimal) : Bool :=
  level.any fun l => if isLong then decide (price ≤ l) else decide (l ≤ price)

def candidates (p : MutablePosition) (price : Decimal) : List (Decimal × PaperExitReason) :=
  [(p.liquidationPrice, .liquidation), (p.stopPrice, .stopLoss), (trailingLevel p, .trailingStop)].filterMap
    fun c => if reached p.isLong price c.1 then c.1.map (fun level => (level, c.2)) else none

def nearer (isLong : Bool) (best item : Decimal × PaperExitReason) : Bool :=
  if isLong then decide (best.1 < item.1) else decide (item.1 < best.1)

/-- The candidate nearest to entry; the first of equals. -/
def nearest (isLong : Bool) : List (Decimal × PaperExitReason) → Option (Decimal × PaperExitReason)
  | [] => none
  | c :: rest => some (rest.foldl (fun best item => if nearer isLong best item then item else best) c)

/-- An adverse level always beats the target. -/
def triggeredExit (p : MutablePosition) (price : Decimal) : Option PaperExitReason :=
  match nearest p.isLong (candidates p price) with
  | some c => some c.2
  | none => if reached (!p.isLong) price p.targetPrice then some .takeProfit else none

/-- Why an order is not opened: a refusal that is recorded without the leverage
decision, one that is recorded with it, or an exception. -/
inductive Decline
  | refused (refusal : RiskRefusal)
  | ruled (refusal : RiskRefusal)
  | raised (error : PaperError)
  deriving DecidableEq

def declining (wrap : RiskRefusal → Decline) (problem : Option RiskRefusal) : Except Decline Unit :=
  match problem with
  | some refusal => .error (wrap refusal)
  | none => .ok ()

def sizePositive (value : Option Decimal) (name : String) : Option RiskRefusal :=
  refusing (value.any fun v => decide (v ≤ 0)) .positionSize s!"{name} must be greater than zero." none

def percentInside (percent : Option Decimal) (name : String) : Option RiskRefusal :=
  let shown := str (percent.getD 0)
  refusing (percent.any fun p => decide (p ≤ 0) || decide (100 ≤ p)) .positionSize
    s!"{name} must be between 0 and 100 exclusive; {shown} is not." none

def validateSizing (request : SubmitOrderRequest) : Option RiskRefusal :=
  refusing (request.quantity.isNone = request.margin.isNone) .positionSize
    ("Specify exactly one of quantity or margin. Supplying neither leaves " ++
      "the size undefined, and supplying both invites them to disagree.") <|
  (sizePositive request.quantity "quantity").or <|
  (sizePositive request.margin "margin").or <|
  (percentInside request.stopLossPercent "stop_loss_percent").or <|
  (percentInside request.takeProfitPercent "take_profit_percent").or <|
  percentInside request.trailingStopPercent "trailing_stop_percent"

def divided (x y : Decimal) : Except Decline Decimal :=
  if y = 0 then .error (.raised .divisionByZero) else .ok (x / y)

def requestedQuantity (request : SubmitOrderRequest) (price leverage : Decimal) : Except Decline Decimal :=
  match request.quantity, request.margin with
  | some quantity, _ => .ok quantity
  | none, some margin => divided (margin * leverage) price
  | none, none => .error (.ruled ⟨.positionSize, "No size was supplied."⟩)

def toStep (quantity step : Decimal) : Except Decline Decimal :=
  (floorToStep quantity step).mapError fun message => .raised (.value message)

/-- Quantity always truncates down. -/
def resolveQuantity (request : SubmitOrderRequest) (price leverage : Decimal) (filters : Option SymbolFilters) :
    Except Decline Decimal := do
  let quantity ← requestedQuantity request price leverage
  match filters with
  | some filters =>
      let quantity ← toStep quantity filters.stepSize
      let shown := str quantity
      let step := str filters.stepSize
      let least := str filters.minQuantity
      let most := str (filters.maxQuantity.getD 0)
      declining .ruled (refusing (quantity ≤ 0) .exchangePrecision
        (s!"After truncating to the venue's step size of {step}, " ++
          "the order rounds to zero: the requested size is smaller than one " ++
          "tradable increment.") none)
      declining .ruled (refusing (0 < filters.minQuantity ∧ quantity < filters.minQuantity) .exchangePrecision
        s!"Quantity {shown} is below the venue's minimum of {least}." none)
      declining .ruled (refusing (filters.maxQuantity.any fun m => decide (m < quantity)) .positionSize
        s!"Quantity {shown} exceeds the venue's maximum of {most}." none)
      return quantity
  | none =>
      let quantity ← toStep quantity usdtExponent
      declining .ruled (refusing (quantity ≤ 0) .positionSize "The resolved quantity is not positive." none)
      return quantity

structure Entry where
  price : Decimal
  priceSource : String
  quantity : Decimal
  notional : Decimal
  margin : Decimal
  approvedLeverage : Decimal
  deriving DecidableEq

def approvedLeverage (leverage : LeverageDecision) : Except Decline Decimal :=
  let detail := leverage.detail
  let refusal : RiskRefusal := ⟨.maxLeverage, s!"Leverage was not approved: {detail}"⟩
  if leverage.isUsable = false then .error (.ruled refusal)
  else match leverage.approvedLeverage with
    | some approved => .ok approved
    | none => .error (.ruled refusal)

def belowMinNotional (symbol : String) (filters : Option SymbolFilters) (notional : Decimal) :
    Option RiskRefusal :=
  let shown := str notional
  match filters.bind SymbolFilters.minNotional with
  | some least =>
      let published := str least
      refusing (notional < least) .minNotional
        (s!"Notional {shown} is below the venue's published minimum of " ++ s!"{published} for {symbol}.") none
  | none => none

/-- The part of a submission that decides. It changes nothing. -/
def considerOrder (config : PaperEngineConfig) (state : PaperState) (request : SubmitOrderRequest)
    (symbol : String) (mark : MarkPrice) (filters : Option SymbolFilters) (leverage : LeverageDecision)
    (paperEnabled : Bool) : Except Decline Entry := do
  declining .refused (checkAuthority state paperEnabled)
  declining .refused (checkMarketData symbol mark.status mark.ageSeconds config.maxDataAgeSeconds)
  declining .refused (refusing (mark.isUsable = false) .staleData
    (orText mark.detail s!"No usable price is available for {symbol}.") none)
  declining .refused (validateSizing request)
  let approved ← approvedLeverage leverage
  let (price, priceSource) ← (fillPrice mark (request.side = .buy) config.slippageBps).mapError .raised
  let quantity ← resolveQuantity request price approved filters
  let notional := quantizeUsdt (quantity * price)
  let margin := quantizeUsdt (← divided notional approved)
  declining .ruled (belowMinNotional symbol filters notional)
  declining .ruled (checkEntry config state paperEnabled symbol quantity notional margin mark leverage)
  return ⟨price, priceSource, quantity, notional, margin, approved⟩

section Considered

variable {ε α β : Type}

theorem bind_ok {x : Except ε α} {f : α → Except ε β} {b : β} :
    (x >>= f) = .ok b ↔ ∃ a, x = .ok a ∧ f a = .ok b := by
  cases x with
  | error e => exact ⟨nofun, nofun⟩
  | ok a => exact ⟨fun h => ⟨a, rfl, h⟩, fun ⟨_, ha, h⟩ => by cases ha; exact h⟩

theorem declining_ok {wrap : RiskRefusal → Decline} {problem : Option RiskRefusal} {u : Unit} :
    declining wrap problem = .ok u ↔ problem = none := by
  cases problem <;> simp [declining]

theorem percentInside_eq_none {percent : Option Decimal} {name : String} :
    percentInside percent name = none ↔ ∀ p ∈ percent, 0 < p ∧ p < 100 := by
  cases percent <;> simp [percentInside, refusing_eq_none]

theorem sizePositive_eq_none {value : Option Decimal} {name : String} :
    sizePositive value name = none ↔ ∀ v ∈ value, 0 < v := by
  cases value <;> simp [sizePositive, refusing_eq_none]

/-- Exactly one size, a positive one, and percentages strictly between nothing and everything. -/
theorem validateSizing_eq_none {request : SubmitOrderRequest} :
    validateSizing request = none ↔
      request.quantity.isNone ≠ request.margin.isNone ∧ (∀ v ∈ request.quantity, 0 < v) ∧
      (∀ v ∈ request.margin, 0 < v) ∧ (∀ p ∈ request.stopLossPercent, 0 < p ∧ p < 100) ∧
      (∀ p ∈ request.takeProfitPercent, 0 < p ∧ p < 100) ∧ ∀ p ∈ request.trailingStopPercent, 0 < p ∧ p < 100 := by
  simp only [validateSizing, refusing_eq_none, Option.or_eq_none_iff, sizePositive_eq_none, percentInside_eq_none, ne_eq]

theorem approvedLeverage_ok {leverage : LeverageDecision} {l : Decimal} (h : approvedLeverage leverage = .ok l) :
    leverage.approvedLeverage = some l := by
  unfold approvedLeverage at h
  dsimp only at h
  split at h
  · cases h
  cases hl : leverage.approvedLeverage with
  | none =>
      rw [hl] at h
      cases h
  | some a =>
      rw [hl] at h
      exact congrArg some (Except.ok.inj h)

/-- What is known of an entry that every check let through. -/
structure Considered (config : PaperEngineConfig) (state : PaperState) (request : SubmitOrderRequest)
    (symbol : String) (leverage : LeverageDecision) (entry : Entry) : Prop where
  admitted : Admitted config state symbol entry.quantity entry.notional entry.margin
  notional_eq : entry.notional = quantizeUsdt (entry.quantity * entry.price)
  approved : leverage.approvedLeverage = some entry.approvedLeverage
  stop : ∀ p ∈ request.stopLossPercent, 0 < p ∧ p < 100

variable {config : PaperEngineConfig} {state : PaperState} {request : SubmitOrderRequest} {symbol : String}
  {mark : MarkPrice} {filters : Option SymbolFilters} {leverage : LeverageDecision} {paperEnabled : Bool}
  {entry : Entry}

theorem mapError_ok {ε' : Type} {x : Except ε α} {f : ε → ε'} {a : α} : x.mapError f = .ok a ↔ x = .ok a := by
  cases x with
  | error e => exact ⟨nofun, nofun⟩
  | ok b => exact ⟨fun h => congrArg Except.ok (Except.ok.inj h), fun h => congrArg Except.ok (Except.ok.inj h)⟩

theorem divided_ok {x y z : Decimal} : divided x y = .ok z ↔ y ≠ 0 ∧ z = x / y := by
  unfold divided
  by_cases h : y = 0
  · simp [h]
  · simp [h, eq_comm]

/-- An order is let through exactly where each check passes, with the figures that they computed. -/
theorem considerOrder_iff :
    considerOrder config state request symbol mark filters leverage paperEnabled = .ok entry ↔
      mark.isUsable = true ∧ validateSizing request = none ∧
      approvedLeverage leverage = .ok entry.approvedLeverage ∧
      fillPrice mark (request.side = .buy) config.slippageBps = .ok (entry.price, entry.priceSource) ∧
      resolveQuantity request entry.price entry.approvedLeverage filters = .ok entry.quantity ∧
      entry.notional = quantizeUsdt (entry.quantity * entry.price) ∧ entry.approvedLeverage ≠ 0 ∧
      entry.margin = quantizeUsdt (entry.notional / entry.approvedLeverage) ∧
      belowMinNotional symbol filters entry.notional = none ∧
      checkEntry config state paperEnabled symbol entry.quantity entry.notional entry.margin mark leverage = none := by
  simp only [considerOrder, bind_ok, declining_ok, mapError_ok, divided_ok, refusing_eq_none, Bool.not_eq_false]
  constructor
  · rintro ⟨_, _, _, _, _, ⟨husable, _⟩, _, hsizing, approved, happroved, ⟨price, source⟩, hprice, quantity, hquantity,
      margin, ⟨hdivisible, rfl⟩, _, hworth, _, hgate, hentry⟩
    cases hentry
    exact ⟨husable, hsizing, happroved, hprice, hquantity, rfl, hdivisible, rfl, hworth, hgate⟩
  · rintro ⟨husable, hsizing, happroved, hprice, hquantity, hnotional, hdivisible, hmargin, hworth, hgate⟩
    obtain ⟨hauthority, hdata, _⟩ := checkEntry_eq_none.mp hgate
    obtain ⟨price, source, quantity, notional, margin, approved⟩ := entry
    dsimp only at *
    subst hnotional hmargin
    exact ⟨(), hauthority, (), hdata, (), ⟨husable, trivial⟩, (), hsizing, approved, happroved, (price, source), hprice,
      quantity, hquantity, _, ⟨hdivisible, rfl⟩, (), hworth, (), hgate, rfl⟩

theorem considerOrder_ok
    (h : considerOrder config state request symbol mark filters leverage paperEnabled = .ok entry) :
    Considered config state request symbol leverage entry := by
  obtain ⟨_, hsizing, happroved, _, _, hnotional, _, _, _, hgate⟩ := considerOrder_iff.mp h
  exact ⟨(checkEntry_eq_none.mp hgate).2.2.2, hnotional, approvedLeverage_ok happroved,
    (validateSizing_eq_none.mp hsizing).2.2.2.1⟩

/-- Where the figures of an entry come from. -/
structure Sized (config : PaperEngineConfig) (request : SubmitOrderRequest) (mark : MarkPrice)
    (filters : Option SymbolFilters) (entry : Entry) : Prop where
  price : fillPrice mark (request.side = .buy) config.slippageBps = .ok (entry.price, entry.priceSource)
  quantity : resolveQuantity request entry.price entry.approvedLeverage filters = .ok entry.quantity
  divisible : entry.approvedLeverage ≠ 0
  margin : entry.margin = quantizeUsdt (entry.notional / entry.approvedLeverage)

theorem considerOrder_sized
    (h : considerOrder config state request symbol mark filters leverage paperEnabled = .ok entry) :
    Sized config request mark filters entry := by
  obtain ⟨_, _, _, hprice, hquantity, _, hdivisible, hmargin, _, _⟩ := considerOrder_iff.mp h
  exact ⟨hprice, hquantity, hdivisible, hmargin⟩

theorem considerOrder_margin_pos
    (h : considerOrder config state request symbol mark filters leverage paperEnabled = .ok entry) :
    ∀ m, request.margin = some m → 0 < m := by
  obtain ⟨_, hsizing, _⟩ := considerOrder_iff.mp h
  exact (validateSizing_eq_none.mp hsizing).2.2.1

theorem Considered.price_pos (h : Considered config state request symbol leverage entry) : 0 < entry.price := by
  by_contra hprice
  have hproduct : entry.quantity * entry.price ≤ 0 :=
    mul_nonpos_of_nonneg_of_nonpos h.admitted.quantity_pos.le (not_lt.mp hprice)
  have hzero : quantizeUsdt 0 = 0 := quantizeUsdt_of_eightPlaces Lib.FixedPoint.grid_zero
  have hnotional : entry.notional ≤ 0 := by
    rw [h.notional_eq, ← hzero]
    exact quantizeUsdt_mono hproduct
  exact hnotional.not_gt h.admitted.notional_pos

end Considered

end Aetheris.PaperPricing
