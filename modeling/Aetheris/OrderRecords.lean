import Aetheris.Clock
import Aetheris.Enums

namespace Aetheris.OrderRecords

open Money Clock Enums

structure OrderIntent where
  accountId : String
  symbol : String
  side : OrderSide
  orderType : Enums.OrderType
  quantity : Decimal
  price : Option Decimal := none
  reduceOnly : Bool := false
  mode : TradingMode := .paper
  origin : OrderOrigin := .manual
  intentKey : String
  createdAt : Timestamp
  quantity_pos : 0 < quantity
  price_pos : ∀ p ∈ price, 0 < p := by simp
  deriving DecidableEq

theorem unpriced_pos : ∀ p ∈ (none : Option Decimal), 0 < p := by simp

structure OrderFill where
  fillId : String
  price : Decimal
  quantity : Decimal
  fee : Decimal := 0
  filledAt : Timestamp
  venueTradeId : Option String := none
  price_pos : 0 < price
  quantity_pos : 0 < quantity
  fee_nonneg : 0 ≤ fee := by decide
  deriving DecidableEq

structure OrderDiscrepancy where
  observedAt : Timestamp
  detail : String
  localState : OrderState
  venueState : Option OrderState := none
  deriving DecidableEq

/-- An order and everything known about it. The bounds a record is checked
against when it is built are not fields: `model_copy` does not run them. -/
structure OrderRecord where
  orderId : String
  clientOrderId : String
  venueOrderId : Option String := none
  intent : OrderIntent
  state : OrderState
  filledQuantity : Decimal := 0
  averageFillPrice : Option Decimal := none
  fills : List OrderFill := []
  createdAt : Timestamp
  updatedAt : Timestamp
  submittedAt : Option Timestamp := none
  terminalAt : Option Timestamp := none
  rejectionCode : Option RiskRejectionCode := none
  rejectionDetail : Option String := none
  venueRejection : Option String := none
  venueStatusRaw : Option String := none
  lastPolledAt : Option Timestamp := none
  venueLeverage : Option Decimal := none
  venueMarginMode : Option MarginMode := none
  reconciliationAttempts : Nat := 0
  lastReconciledAt : Option Timestamp := none
  reconciliationDetail : Option String := none
  discrepancies : List OrderDiscrepancy := []
  resolvedByOperator : Option String := none
  operatorReason : Option String := none

namespace OrderRecord

def isTerminal (r : OrderRecord) : Bool := r.state.isTerminal

def isUnreconciled (r : OrderRecord) : Bool := r.state = .unknown || r.state = .reconciling

def reachedVenue (r : OrderRecord) : Bool := r.submittedAt.isSome

def remainingQuantity (r : OrderRecord) : Decimal := max (r.intent.quantity - r.filledQuantity) 0

def fillTotal (fills : List OrderFill) : Decimal := (fills.map OrderFill.quantity).sum

def fillNotional (fills : List OrderFill) : Decimal := (fills.map (fun f => f.price * f.quantity)).sum

def fillsAgreeWithFilledQuantity (r : OrderRecord) : Bool :=
  r.fills.isEmpty || decide (fillTotal r.fills = r.filledQuantity)

/-- What building the record anew from its stored fields checks. -/
def validates (r : OrderRecord) : Bool :=
  decide (0 ≤ r.filledQuantity) && r.venueLeverage.all (fun x => decide (0 < x)) &&
    r.fillsAgreeWithFilledQuantity

end OrderRecord

structure VenueOrderView where
  clientOrderId : String
  venueOrderId : Option String := none
  state : OrderState
  filledQuantity : Decimal := 0
  averageFillPrice : Option Decimal := none
  observedAt : Timestamp
  venueRejection : Option String := none
  filledQuantity_nonneg : 0 ≤ filledQuantity := by decide
  deriving DecidableEq

inductive ReconciliationAction
  | adoptVenueState | resolveNeverSubmitted | remainUnknown | recordDiscrepancy | venueUnreachable
  deriving DecidableEq, Repr

structure ReconciliationDecision where
  action : ReconciliationAction
  targetState : Option OrderState := none
  detail : String
  discrepancy : Option String := none
  venueOrderId : Option String := none
  filledQuantity : Option Decimal := none
  averageFillPrice : Option Decimal := none
  deriving DecidableEq

def ReconciliationDecision.resolves (d : ReconciliationDecision) : Bool :=
  d.targetState.any OrderState.isTerminal

structure OrderBookkeeping where
  total : Nat := 0
  openOrders : Nat := 0
  unreconciled : Nat := 0
  terminal : Nat := 0
  discrepancies : Nat := 0
  deriving DecidableEq, Repr

def OrderBookkeeping.blocksEntry (b : OrderBookkeeping) : Bool := 0 < b.unreconciled

end Aetheris.OrderRecords
