import Aetheris.PaperRecords

namespace Aetheris.PaperGate

open Lib Money Clock Enums Leverage RiskEngine PaperRecords

structure RiskRefusal where
  code : RiskRejectionCode
  detail : String
  deriving DecidableEq

/-- A check that refuses, or the next one. -/
def refusing (p : Prop) [Decidable p] (code : RiskRejectionCode) (detail : String)
    (next : Option RiskRefusal) : Option RiskRefusal :=
  if p then some ⟨code, detail⟩ else next

theorem refusing_eq_none {p : Prop} [Decidable p] {code : RiskRejectionCode} {detail : String}
    {next : Option RiskRefusal} : refusing p code detail next = none ↔ ¬p ∧ next = none := by
  unfold refusing
  split
  next h => simp [h]
  next h => simp [h]

def checkMarketData (symbol : String) (markStatus : DataStatus) (markAgeSeconds : Option Decimal)
    (maxDataAgeSeconds : Decimal) : Option RiskRefusal :=
  let status := markStatus.value
  refusing (markStatus ≠ .ok) .staleData
    s!"Market data for {symbol} is {status}; no price to fill against." <|
  match markAgeSeconds with
  | none => some ⟨.staleData,
      s!"Freshness of {symbol}'s price could not be verified (the venue " ++
        "supplied no event timestamp), so it cannot be used to fill an order."⟩
  | some age =>
      let old := fixed 1 age
      let limit := fixed 0 maxDataAgeSeconds
      refusing (maxDataAgeSeconds < age) .staleData
        (s!"{symbol}'s price is {old}s old, beyond the " ++ s!"{limit}s limit for acting on it.") none

def locked (session : Option MutableSession) : Option MutableSession :=
  session.filter (fun s => s.lockState.blocksEntries)

def lockRefusal (session : MutableSession) : RiskRefusal :=
  let realised := str session.realizedPnl
  let target := str session.profitTarget
  let limit := str session.lossLimit
  if session.lockState = .dailyProfitTarget then
    ⟨.dailyProfitTarget, orText session.lockReason
      (s!"Daily profit target of {target} reached " ++ s!"(realised {realised}). Existing positions are still " ++
        "managed; no new entries today.")⟩
  else
    ⟨.dailyLossLimit, orText session.lockReason
      (s!"Daily loss limit of {limit} reached " ++ s!"(realised {realised}). Existing positions are still " ++
        "managed; no new entries today.")⟩

def checkAuthority (state : PaperState) (paperEnabled : Bool) : Option RiskRefusal :=
  refusing (paperEnabled = false) .modeNotEnabled
    "Paper trading is not enabled in this deployment's configuration." <|
  refusing state.emergencyStopped .emergencyStop
    (orText state.emergencyReason "An emergency stop is active; no new entries.") <|
  (locked state.session).map lockRefusal

def availableBalance (state : PaperState) : Decimal := state.balance - state.positions.total (fun p => p.margin)

def exposure (state : PaperState) : Decimal := state.positions.total (fun p => p.notional)

def checkEntry (config : PaperEngineConfig) (state : PaperState) (paperEnabled : Bool) (symbol : String)
    (quantity notional marginRequired : Decimal) (mark : MarkPrice) (leverage : LeverageDecision) :
    Option RiskRefusal :=
  (checkAuthority state paperEnabled).or <|
  (checkMarketData symbol mark.status mark.ageSeconds config.maxDataAgeSeconds).or <|
  let detail := leverage.detail
  refusing (leverage.isUsable = false) .maxLeverage s!"Leverage was not approved: {detail}" <|
  refusing (quantity ≤ 0) .positionSize "Quantity must be greater than zero." <|
  refusing (notional ≤ 0) .minNotional "Order notional must be greater than zero." <|
  let shown := str notional
  let ceiling := str config.maxPositionNotional
  refusing (config.maxPositionNotional < notional) .positionSize
    s!"Notional {shown} exceeds the per-position ceiling {ceiling}." <|
  refusing (symbol ∈ state.positions.keys) .symbolLimit
    (s!"A paper position in {symbol} is already open. This engine holds one " ++
      "position per symbol; close it before opening another.") <|
  let count := state.positions.size
  let most := config.maxOpenPositions
  refusing (most ≤ (count : Int)) .maxOpenPositions
    s!"{count} positions are open, at the ceiling of {most}." <|
  let total := str (exposure state + notional)
  let portfolio := str config.maxPortfolioExposure
  refusing (config.maxPortfolioExposure < exposure state + notional) .portfolioExposure
    (s!"Opening this position would take total notional to {total}, " ++
      s!"beyond the portfolio ceiling {portfolio}.") <|
  let margin := str marginRequired
  let available := str (availableBalance state)
  refusing (availableBalance state < marginRequired) .insufficientBalance
    s!"Margin of {margin} exceeds the available balance {available}." none

theorem checkMarketData_eq_none {symbol : String} {status : DataStatus} {age : Option Decimal} {limit : Decimal} :
    checkMarketData symbol status age limit = none ↔ status = .ok ∧ ∃ a, age = some a ∧ a ≤ limit := by
  cases age with
  | none => simp [checkMarketData, refusing_eq_none]
  | some a => simp [checkMarketData, refusing_eq_none]

theorem checkAuthority_eq_none {state : PaperState} {paperEnabled : Bool} :
    checkAuthority state paperEnabled = none ↔
      paperEnabled = true ∧ state.emergencyStopped = false ∧ ∀ s ∈ state.session, s.lockState = .none := by
  rw [checkAuthority, refusing_eq_none, refusing_eq_none, Option.map_eq_none_iff, locked, Option.filter_eq_none_iff]
  simp [RiskLockState.blocksEntries]

/-- What an order that passes the gate is known to be. -/
structure Admitted (config : PaperEngineConfig) (state : PaperState) (symbol : String)
    (quantity notional marginRequired : Decimal) : Prop where
  running : state.emergencyStopped = false
  unlocked : ∀ s ∈ state.session, s.lockState = .none
  quantity_pos : 0 < quantity
  notional_pos : 0 < notional
  notional_le : notional ≤ config.maxPositionNotional
  free : symbol ∉ state.positions.keys
  slots : (state.positions.size : Int) < config.maxOpenPositions
  exposure_le : exposure state + notional ≤ config.maxPortfolioExposure
  funded : marginRequired ≤ availableBalance state

variable {config : PaperEngineConfig} {state : PaperState} {paperEnabled : Bool} {symbol : String}
  {quantity notional marginRequired : Decimal} {mark : MarkPrice} {leverage : LeverageDecision}

theorem checkEntry_eq_none :
    checkEntry config state paperEnabled symbol quantity notional marginRequired mark leverage = none ↔
      checkAuthority state paperEnabled = none ∧
      checkMarketData symbol mark.status mark.ageSeconds config.maxDataAgeSeconds = none ∧
      leverage.isUsable = true ∧ Admitted config state symbol quantity notional marginRequired := by
  simp only [checkEntry, Option.or_eq_none_iff, refusing_eq_none, not_le, not_lt, Bool.not_eq_false]
  constructor
  · rintro ⟨hauthority, hdata, husable, hquantity, hnotional, hceiling, hfree, hslots, hexposure, hfunded, _⟩
    obtain ⟨_, hrunning, hunlocked⟩ := checkAuthority_eq_none.mp hauthority
    exact ⟨hauthority, hdata, husable, hrunning, hunlocked, hquantity, hnotional, hceiling, hfree, hslots, hexposure,
      hfunded⟩
  · rintro ⟨hauthority, hdata, husable, h⟩
    exact ⟨hauthority, hdata, husable, h.quantity_pos, h.notional_pos, h.notional_le, h.free, h.slots, h.exposure_le,
      h.funded, trivial⟩

end Aetheris.PaperGate
