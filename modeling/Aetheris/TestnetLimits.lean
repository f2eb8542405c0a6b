import Aetheris.TestnetSizing

namespace Aetheris.TestnetLimits

open Lib Coroutine Money Enums RiskEngine RiskEnvelope OrderRecords OrderStore OrderIdentity TestnetService TestnetRuling
  TestnetDesk TestnetSizing

variable {durable : Bool}

section Account

variable (settings : RiskSettings) (book : VenueBook)

/-- What the day's realised PnL locks. -/
def lockState : RiskLockState :=
  if settings.dailyProfitTarget ≤ book.realizedPnl then .dailyProfitTarget
  else if book.realizedPnl ≤ settings.dailyLossLimit then .dailyLossLimit
  else .none

def totalNotional : Decimal := book.positions.total id

/-- The limits of the account, for an order that adds a notional in a symbol. -/
structure Limits (symbol : String) (added : Decimal) : Prop where
  unheld : symbol ∉ book.positions.keys
  slot : (book.positions.size : Int) < settings.maxOpenPositions
  exposure : totalNotional book + added ≤ settings.maxPortfolioExposure
  above : settings.dailyLossLimit < book.realizedPnl
  below : book.realizedPnl < settings.dailyProfitTarget

variable [Runtime] (service : TestnetExecutionService) (x : Grounds)

/-- The view the order was ruled on. -/
def viewed : RiskAccountView := TestnetRuling.accountView service settings x.balance x.realized x.pending

/-- That view, with what it makes up read from the account. -/
def measured : RiskAccountView :=
  { viewed settings service x with
    openSymbols := book.positions.keys
    openPositionCount := book.positions.size
    totalNotional := totalNotional book
    lockState := lockState settings book }

/-- What the view makes up makes no difference: each check comes out on it as it
would on the account, and sizing adds no step that the exposure leaves no room for. -/
structure Harmless : Prop where
  held : x.symbol ∈ (measured settings book service x).openSymbols ↔ x.symbol ∈ (viewed settings service x).openSymbols
  slot : ((measured settings book service x).openPositionCount : Int) < settings.policy.maxOpenPositions ↔
    ((viewed settings service x).openPositionCount : Int) < settings.policy.maxOpenPositions
  lock : (measured settings book service x).lockState.blocksEntries = (viewed settings service x).lockState.blocksEntries
  exposure : x.worth < (⌊(settings.policy.maxPortfolioExposure - (measured settings book service x).totalNotional) /
    x.price / x.step⌋ + 1) * x.step * x.price

end Account

variable {service : TestnetExecutionService} {settings : RiskSettings}

theorem blocksEntries_lockState {book : VenueBook} : (lockState settings book).blocksEntries = false ↔
    settings.dailyLossLimit < book.realizedPnl ∧ book.realizedPnl < settings.dailyProfitTarget := by
  unfold lockState
  split
  next h => exact iff_of_false (by decide) fun hopen => absurd hopen.2 (not_lt.mpr h)
  next hbelow =>
    split
    next h => exact iff_of_false (by decide) fun hopen => absurd hopen.1 (not_lt.mpr h)
    next habove => exact iff_of_true rfl ⟨not_le.mp habove, not_le.mp hbelow⟩

variable [Runtime]

theorem limits_iff {x : Grounds} {y : Dispatch} (h : Rests service settings x y) :
    Limits settings y.book x.symbol (y.record.intent.quantity * x.price) ↔ Harmless settings y.book service x := by
  obtain ⟨_, _, _, hcleared⟩ := evaluate_cleared h.ruled.evaluated h.ruled.approved
  have hslots : (0 : Int) < settings.policy.maxOpenPositions := hcleared.slots.2
  have hprice : 0 < x.price := h.sized.price_pos
  have hexposure : totalNotional y.book + y.record.intent.quantity * x.price ≤ settings.maxPortfolioExposure ↔
      x.worth < (⌊(settings.maxPortfolioExposure - totalNotional y.book) / x.price / x.step⌋ + 1) * x.step * x.price := by
    rw [← sized_le_iff h.sized (worth_nonneg h.ruled), le_div_iff₀ hprice, le_sub_iff_add_le']
  constructor
  · intro hl
    refine ⟨iff_of_false hl.unheld List.not_mem_nil, iff_of_true hl.slot hslots, ?_, hexposure.mp hl.exposure⟩
    exact blocksEntries_lockState.mpr ⟨hl.above, hl.below⟩
  · intro hh
    obtain ⟨habove, hbelow⟩ := blocksEntries_lockState.mp hh.lock
    exact ⟨fun hm => List.not_mem_nil (hh.held.mp hm), hh.slot.mpr hslots, hexposure.mpr hh.exposure, habove, hbelow⟩

omit [Runtime]

def again : TestnetOrderRequest := { Submission.exampleRequest with intentKey := "k3" }

/-- The same symbol is bought twice. -/
def sentTwice : Desk true := @afterSubmission referenceRuntime steady again (sentAt steady)

end Aetheris.TestnetLimits
