import Aetheris.OrderStore
import Aetheris.OrderIdentity
import Aetheris.Reconcile

namespace Aetheris.OrderEngine

open Money Clock Enums OrderRecords OrderMachine OrderStore OrderRepository OrderIdentity
open Reconcile hiding decide

variable {σ α : Type} [OrderRepository σ]

structure RecoveryReport where
  durable : Bool
  scanned : Nat := 0
  interrupted : List String := []
  neverSubmitted : List String := []
  alreadyUnresolved : List String := []
  unreadable : List String := []

def RecoveryReport.blocking (report : RecoveryReport) : Nat :=
  report.interrupted.length + report.alreadyUnresolved.length + report.unreadable.length

structure ReconciliationPending where
  count : Nat
  detail : String

def build [Runtime] (orderId : String) (intent : OrderIntent) : OrderRecord where
  orderId := orderId
  clientOrderId := clientOrderId intent.accountId intent.intentKey
  intent := intent
  state := .created
  createdAt := intent.createdAt
  updatedAt := intent.createdAt

/-- `orderId` is what `new_order_id` drew. -/
def create [Runtime] (orderId : String) (intent : OrderIntent) : OrderM σ OrderRecord :=
  add (build orderId intent)

def createOrGet [Runtime] (orderId : String) (intent : OrderIntent) : OrderM σ (OrderRecord × Bool) :=
  addOrGet (build orderId intent)

def held (orderId : String) (f : OrderRecord → OrderM σ α) : OrderM σ α := do
  match ← get orderId with
  | none => throw (.keyError s!"No order {orderId}")
  | some record => f record

def check (current target : OrderState) (orderId : String) : OrderM σ Unit :=
  match checkTransition current target orderId with
  | .ok () => pure ()
  | .error e => throw (.illegalTransition e)

/-- `terminal_at` is stamped when the target is terminal, and left alone otherwise. -/
def stampTerminal (target : OrderState) (now : Timestamp) (terminalAt : Option Timestamp) :
    Option Timestamp :=
  if target.isTerminal then some now else terminalAt

def withMove (record : OrderRecord) (target : OrderState) (now : Timestamp)
    (submittedAt : Option Timestamp) : OrderRecord :=
  { record with
    state := target
    updatedAt := now
    submittedAt := submittedAt.or record.submittedAt
    terminalAt := stampTerminal target now record.terminalAt }

def move (orderId : String) (target : OrderState) (now : Timestamp)
    (submittedAt : Option Timestamp) : OrderM σ OrderRecord :=
  held orderId fun record => do
    check record.state target orderId
    update (withMove record target now submittedAt)

def withDiscrepancy (record : OrderRecord) (detail : String) (now : Timestamp) : OrderRecord :=
  { record with
    discrepancies := record.discrepancies ++ [{ observedAt := now, detail := detail, localState := record.state }]
    lastReconciledAt := some now
    updatedAt := now }

def recordDiscrepancy (record : OrderRecord) (detail : String) (now : Timestamp) : OrderM σ OrderRecord :=
  update (withDiscrepancy record detail now)

def markValidating (orderId : String) (now : Timestamp) : OrderM σ OrderRecord :=
  move orderId .validating now none

def withRiskRejection (record : OrderRecord) (code : RiskRejectionCode) (detail : String)
    (now : Timestamp) : OrderRecord :=
  { record with
    state := .rejected
    rejectionCode := some code
    rejectionDetail := some detail
    updatedAt := now
    terminalAt := some now }

def markRiskRejected (orderId : String) (code : RiskRejectionCode) (detail : String) (now : Timestamp) :
    OrderM σ OrderRecord :=
  held orderId fun record => do
    check record.state .rejected orderId
    update (withRiskRejection record code detail now)

def withCancellation (record : OrderRecord) (reason : String) (now : Timestamp) : OrderRecord :=
  { record with
    state := .cancelled
    rejectionDetail := some reason
    updatedAt := now
    terminalAt := some now }

def cancelBeforeSubmission (orderId reason : String) (now : Timestamp) : OrderM σ OrderRecord :=
  held orderId fun record => do
    if record.reachedVenue then
      throw (.illegalTransition { detail :=
        s!"{orderId} has already been submitted; cancelling it locally would " ++
        "abandon an order that may exist at the venue. Request a cancellation " ++
        "and reconcile instead." })
    else
      check record.state .cancelled orderId
      update (withCancellation record reason now)

def markSubmitting (orderId : String) (now : Timestamp) : OrderM σ OrderRecord :=
  move orderId .submitted now (some now)

def withAck (record : OrderRecord) (venueOrderId : String) (state : OrderState) (now : Timestamp) :
    OrderRecord :=
  { record with
    state := state
    venueOrderId := some venueOrderId
    updatedAt := now
    terminalAt := stampTerminal state now record.terminalAt }

def applyVenueAck (orderId venueOrderId : String) (state : OrderState) (now : Timestamp) :
    OrderM σ OrderRecord :=
  held orderId fun record => do
    check record.state state orderId
    update (withAck record venueOrderId state now)

def withUnknown (record : OrderRecord) (reason : String) (now : Timestamp) : OrderRecord :=
  { record with
    state := .unknown
    reconciliationDetail := some reason
    updatedAt := now }

def markUnknown (orderId reason : String) (now : Timestamp) : OrderM σ OrderRecord :=
  held orderId fun record => do
    check record.state .unknown orderId
    update (withUnknown record reason now)

def averageOf (fills : List OrderFill) (total : Decimal) : Option Decimal :=
  if 0 < total then some (quantizeUsdt (OrderRecord.fillNotional fills / total)) else none

def fillTarget (record : OrderRecord) (newTotal : Decimal) : OrderState :=
  if newTotal = record.intent.quantity then .filled else .partiallyFilled

def withFill (record : OrderRecord) (fill : OrderFill) (now : Timestamp) : OrderRecord :=
  let newTotal := record.filledQuantity + fill.quantity
  let target := fillTarget record newTotal
  let fills := record.fills ++ [fill]
  { record with
    state := target
    fills := fills
    filledQuantity := newTotal
    averageFillPrice := averageOf fills newTotal
    updatedAt := now
    terminalAt := stampTerminal target now record.terminalAt }

def applyFill (orderId : String) (fill : OrderFill) (now : Timestamp) : OrderM σ OrderRecord :=
  held orderId fun record => do
    let newTotal := record.filledQuantity + fill.quantity
    if record.intent.quantity < newTotal then
      let quantity := str fill.quantity
      let total := str newTotal
      let ordered := str record.intent.quantity
      recordDiscrepancy record
        (s!"A fill of {quantity} would take {orderId} to {total}, past " ++
          s!"the {ordered} ordered. Recorded, not applied.") now
    else
      check record.state (fillTarget record newTotal) orderId
      update (withFill record fill now)

def withAttempt (record : OrderRecord) (now : Timestamp) : OrderRecord :=
  { record with
    state := .reconciling
    reconciliationAttempts := record.reconciliationAttempts + 1
    updatedAt := now }

def beginReconciliation (orderId : String) (now : Timestamp) : OrderM σ OrderRecord :=
  held orderId fun record => do
    check record.state .reconciling orderId
    update (withAttempt record now)

def withNote (record : OrderRecord) (detail : String) (now : Timestamp) : OrderRecord :=
  { record with
    reconciliationDetail := some detail
    lastReconciledAt := some now
    updatedAt := now }

/-- A venue total drops the local fills and brings its own average with it. -/
def withDecision (record : OrderRecord) (decision : ReconciliationDecision) (target : OrderState)
    (now : Timestamp) : OrderRecord :=
  { record with
    state := target
    reconciliationDetail := some decision.detail
    lastReconciledAt := some now
    updatedAt := now
    venueOrderId := decision.venueOrderId.or record.venueOrderId
    filledQuantity := decision.filledQuantity.getD record.filledQuantity
    fills := if decision.filledQuantity.isSome then [] else record.fills
    averageFillPrice :=
      if decision.filledQuantity.isSome then decision.averageFillPrice else record.averageFillPrice
    terminalAt := stampTerminal target now record.terminalAt }

/-- Python's `or` on an optional string: an empty one falls through too. -/
def discrepancyText (decision : ReconciliationDecision) : String :=
  match decision.discrepancy with
  | some text => if text.isEmpty then decision.detail else text
  | none => decision.detail

def applyReconciliation (orderId : String) (decision : ReconciliationDecision) (now : Timestamp) :
    OrderM σ OrderRecord :=
  held orderId fun record => do
    if decision.action = .recordDiscrepancy then
      recordDiscrepancy record (discrepancyText decision) now
    else if decision.action = .venueUnreachable then
      update (withNote record decision.detail now)
    else match decision.targetState with
      | none => return record
      | some target =>
          if target = record.state then update (withNote record decision.detail now)
          else do
            check record.state target orderId
            update (withDecision record decision target now)

def reconcile (orderId : String) (venueView : Option VenueOrderView) (venueReachable : Bool)
    (now : Timestamp) : OrderM σ (OrderRecord × ReconciliationDecision) :=
  held orderId fun record => do
    let decision := Reconcile.decide record venueView venueReachable
    return (← applyReconciliation orderId decision now, decision)

def withResolution (record : OrderRecord) (toState : OrderState) (operator reason : String)
    (now : Timestamp) : OrderRecord :=
  { record with
    state := toState
    resolvedByOperator := some operator
    operatorReason := some reason
    reconciliationDetail := some s!"Resolved manually by {operator} without venue evidence: {reason}"
    lastReconciledAt := some now
    updatedAt := now
    terminalAt := stampTerminal toState now record.terminalAt }

def resolveManually (orderId : String) (toState : OrderState) (operator reason : String)
    (now : Timestamp) : OrderM σ OrderRecord :=
  held orderId fun record => do
    if !record.isUnreconciled then
      let here := record.state.value
      throw (.illegalTransition { detail :=
        s!"{orderId} is {here}, not awaiting reconciliation. Manual " ++
        "resolution exists for orders the venue cannot settle, not as a way to " ++
        "move an order that is progressing normally." })
    else
      let record ← if record.state = .unknown then beginReconciliation orderId now else pure record
      check record.state toState orderId
      update (withResolution record toState operator reason now)

def bookkeeping : OrderM σ OrderBookkeeping := do
  let records ← allRecords
  return { total := records.length
           openOrders := (records.filter (fun r => r.state.isOpen)).length
           unreconciled := (blockingOrders records).length
           terminal := (records.filter OrderRecord.isTerminal).length
           discrepancies := (records.map (fun r => r.discrepancies.length)).sum }

def unreconciledOrders : OrderM σ (List OrderRecord) := do return blockingOrders (← allRecords)

def blockingDetail : OrderM σ String := do return summarise (← allRecords)

def reconciliationPending : OrderM σ ReconciliationPending := do
  let scan ← scanOpen
  if scan.blocking = 0 then return ⟨0, "No orders are awaiting reconciliation."⟩
  else
    let count := scan.unreadable.length
    let detail := summarise scan.records
    let prefixed := if scan.unreadable.isEmpty then detail else
      s!"{count} stored order(s) could not be read and may " ++
      "correspond to a position at a venue. " ++ detail
    return ⟨scan.blocking, prefixed⟩

def interruptedReason : String :=
  "The process stopped while this order was in flight. Its state at " ++
  "the venue was never confirmed, so it is unknown rather than assumed."

def recoverRecords (now : Timestamp) : List OrderRecord → RecoveryReport → OrderM σ RecoveryReport
  | [], report => pure report
  | record :: rest, report =>
      if record.isUnreconciled then
        recoverRecords now rest
          { report with alreadyUnresolved := report.alreadyUnresolved ++ [record.orderId] }
      else if !record.reachedVenue then
        recoverRecords now rest
          { report with neverSubmitted := report.neverSubmitted ++ [record.orderId] }
      else do
        let _ ← markUnknown record.orderId interruptedReason now
        recoverRecords now rest
          { report with interrupted := report.interrupted ++ [record.orderId] }

def damagedDetail (damaged : UnreadableOrder) : String :=
  let reason := damaged.reason
  let state := damaged.state.value
  s!"Stored order could not be loaded ({reason}) while its " ++
  s!"state was {state}. It is treated as blocking: an order " ++
  "that cannot be read may still be a position at a venue."

def recoverUnreadable (now : Timestamp) : List UnreadableOrder → OrderM σ Unit
  | [] => pure ()
  | damaged :: rest => do
      recordUnreadable damaged.orderId (damagedDetail damaged) now
      recoverUnreadable now rest

def recover (now : Timestamp) : OrderM σ RecoveryReport := do
  if !durable σ then return { durable := false }
  else
    let scan ← scanOpen
    let report ← recoverRecords now scan.records
      { durable := true, scanned := scan.records.length + scan.unreadable.length }
    recoverUnreadable now scan.unreadable
    return { report with unreadable := scan.unreadable.map UnreadableOrder.orderId }

def ordersNeedingReconciliation : OrderM σ (List OrderRecord) := openRecords

end Aetheris.OrderEngine
