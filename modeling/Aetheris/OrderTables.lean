import Aetheris.OrderStore
import Mathlib.Data.List.Sort

namespace Aetheris.OrderTables

open Lib Money Clock Enums OrderRecords OrderMachine OrderStore

/-! ### The tables -/

/-- A row of `orders`. The account, of which a repository reads no row but its own, is not a column here. -/
structure OrderRow where
  orderId : String
  clientOrderId : String
  venueOrderId : Option String
  state : OrderState
  symbol : String
  side : OrderSide
  orderType : Enums.OrderType
  mode : TradingMode
  origin : OrderOrigin
  intentKey : String
  reduceOnly : Bool
  quantity : Decimal
  price : Option Decimal
  filledQuantity : Decimal
  averageFillPrice : Option Decimal
  createdAt : Timestamp
  updatedAt : Timestamp
  submittedAt : Option Timestamp
  terminalAt : Option Timestamp
  rejectionCode : Option RiskRejectionCode
  rejectionDetail : Option String
  venueRejection : Option String
  reconciliationAttempts : Nat
  lastReconciledAt : Option Timestamp
  reconciliationDetail : Option String
  venueStatusRaw : Option String
  lastPolledAt : Option Timestamp
  venueLeverage : Option Decimal
  venueMarginMode : Option MarginMode
  resolvedByOperator : Option String
  operatorReason : Option String

/-- A row of `order_fills`. The key of its order is the order's own id, which is unique too. -/
structure OrderFillRow where
  orderId : String
  fillId : String
  venueTradeId : Option String
  price : Decimal
  quantity : Decimal
  fee : Decimal
  filledAt : Timestamp

/-- A row of `order_discrepancies`. -/
structure OrderDiscrepancyRow where
  orderId : String
  observedAt : Timestamp
  detail : String
  localState : OrderState
  venueState : Option OrderState

/-- The rows of one account. `uuid` reads an account id and gives it back in its canonical form. -/
structure PostgresTables (uuid : String → Option String) (accountId : String) where
  orders : List OrderRow
  fills : List OrderFillRow
  discrepancies : List OrderDiscrepancyRow

variable {uuid : String → Option String} {accountId : String}

namespace PostgresTables

def empty : PostgresTables uuid accountId := ⟨[], [], []⟩

def row? (s : PostgresTables uuid accountId) (orderId : String) : Option OrderRow :=
  s.orders.find? fun row => row.orderId = orderId

def fillsOf (s : PostgresTables uuid accountId) (orderId : String) : List OrderFillRow :=
  s.fills.filter fun fill => fill.orderId = orderId

def discrepanciesOf (s : PostgresTables uuid accountId) (orderId : String) : List OrderDiscrepancyRow :=
  s.discrepancies.filter fun discrepancy => discrepancy.orderId = orderId

end PostgresTables

/-! ### Mapping -/

/-- One more than the greatest value of a `NUMERIC(24, 8)` column. -/
def numericLimit : Decimal := 10000000000000000

/-- What a `NUMERIC(24, 8)` column makes of a value: eight decimals, and nothing where the rest does not fit. -/
def numeric (value : Decimal) : Option Decimal :=
  let rounded := quantizeUsdt value
  if |rounded| < numericLimit then some rounded else none

def columns (record : OrderRecord) : Option OrderRow := do
  let quantity ← numeric record.intent.quantity
  let price ← record.intent.price.mapM numeric
  let filledQuantity ← numeric record.filledQuantity
  let averageFillPrice ← record.averageFillPrice.mapM numeric
  let venueLeverage ← record.venueLeverage.mapM numeric
  return {
    orderId := record.orderId
    clientOrderId := record.clientOrderId
    venueOrderId := record.venueOrderId
    state := record.state
    symbol := record.intent.symbol
    side := record.intent.side
    orderType := record.intent.orderType
    mode := record.intent.mode
    origin := record.intent.origin
    intentKey := record.intent.intentKey
    reduceOnly := record.intent.reduceOnly
    quantity := quantity
    price := price
    filledQuantity := filledQuantity
    averageFillPrice := averageFillPrice
    createdAt := record.createdAt
    updatedAt := record.updatedAt
    submittedAt := record.submittedAt
    terminalAt := record.terminalAt
    rejectionCode := record.rejectionCode
    rejectionDetail := record.rejectionDetail
    venueRejection := record.venueRejection
    reconciliationAttempts := record.reconciliationAttempts
    lastReconciledAt := record.lastReconciledAt
    reconciliationDetail := record.reconciliationDetail
    venueStatusRaw := record.venueStatusRaw
    lastPolledAt := record.lastPolledAt
    venueLeverage := venueLeverage
    venueMarginMode := record.venueMarginMode
    resolvedByOperator := record.resolvedByOperator
    operatorReason := record.operatorReason }

def OrderRow.intent? (row : OrderRow) (accountId : String) : Option OrderIntent :=
  if h : 0 < row.quantity ∧ ∀ p ∈ row.price, 0 < p then
    some
      { accountId := accountId
        symbol := row.symbol
        side := row.side
        orderType := row.orderType
        quantity := row.quantity
        price := row.price
        reduceOnly := row.reduceOnly
        mode := row.mode
        origin := row.origin
        intentKey := row.intentKey
        createdAt := row.createdAt
        quantity_pos := h.1
        price_pos := h.2 }
  else none

def OrderFillRow.fill? (row : OrderFillRow) : Option OrderFill :=
  if h : 0 < row.price ∧ 0 < row.quantity ∧ 0 ≤ row.fee then
    some
      { fillId := row.fillId
        price := row.price
        quantity := row.quantity
        fee := row.fee
        filledAt := row.filledAt
        venueTradeId := row.venueTradeId
        price_pos := h.1
        quantity_pos := h.2.1
        fee_nonneg := h.2.2 }
  else none

def OrderDiscrepancyRow.discrepancy (row : OrderDiscrepancyRow) : OrderDiscrepancy :=
  ⟨row.observedAt, row.detail, row.localState, row.venueState⟩

/-- The order the fills of an order are read in. -/
def EarlierFill (f g : OrderFillRow) : Prop := f.filledAt < g.filledAt ∨ f.filledAt = g.filledAt ∧ f.fillId ≤ g.fillId

instance : DecidableRel EarlierFill := fun f g =>
  inferInstanceAs (Decidable (f.filledAt < g.filledAt ∨ f.filledAt = g.filledAt ∧ f.fillId ≤ g.fillId))

namespace PostgresTables

def hydrate (s : PostgresTables uuid accountId) (row : OrderRow) : Option OrderRecord := do
  let fills ← ((s.fillsOf row.orderId).insertionSort EarlierFill).mapM OrderFillRow.fill?
  let discrepancies := (s.discrepanciesOf row.orderId).insertionSort fun d e => d.observedAt ≤ e.observedAt
  let intent ← row.intent? accountId
  let record : OrderRecord :=
    { orderId := row.orderId
      clientOrderId := row.clientOrderId
      venueOrderId := row.venueOrderId
      intent := intent
      state := row.state
      filledQuantity := row.filledQuantity
      averageFillPrice := row.averageFillPrice
      fills := fills
      createdAt := row.createdAt
      updatedAt := row.updatedAt
      submittedAt := row.submittedAt
      terminalAt := row.terminalAt
      rejectionCode := row.rejectionCode
      rejectionDetail := row.rejectionDetail
      venueRejection := row.venueRejection
      venueStatusRaw := row.venueStatusRaw
      lastPolledAt := row.lastPolledAt
      venueLeverage := row.venueLeverage
      venueMarginMode := row.venueMarginMode
      reconciliationAttempts := row.reconciliationAttempts
      lastReconciledAt := row.lastReconciledAt
      reconciliationDetail := row.reconciliationDetail
      discrepancies := discrepancies.map OrderDiscrepancyRow.discrepancy
      resolvedByOperator := row.resolvedByOperator
      operatorReason := row.operatorReason }
  if record.validates then return record else none

/-! ### Writes -/

def requireOwnAccount (record : OrderRecord) : OrderM (PostgresTables uuid accountId) Unit :=
  let orderId := record.orderId
  let named := record.intent.accountId
  match uuid named with
  | none => throw (.valueError (s!"order {orderId} names account '{named}', " ++
      "which is not an account identifier this store recognises"))
  | some declared =>
      if declared ≠ accountId then
        throw (.valueError (s!"order {orderId} belongs to a different account than this " ++
          "repository was opened for"))
      else pure ()

def violated (name : String) : OrderError := .databaseUnavailable s!"integrity constraint violated: {name}"

/-- What a constraint of `orders` says about a row that comes beside the others. -/
def conflict (record : OrderRecord) (others : List OrderRow) : Option OrderError :=
  let orderId := record.orderId
  if others.any fun row => row.clientOrderId = record.clientOrderId then
    some (.duplicateClientOrderId (RecordStore.duplicateMessage record))
  else if others.any fun row => row.orderId = record.orderId then
    some (.valueError (s!"order id {orderId} is already in use. Local order ids must be " ++
      "unique across every process and every restart."))
  else if record.venueOrderId.isSome && others.any fun row => row.venueOrderId = record.venueOrderId then
    some (violated "uq_orders_account_venue_order_id")
  else none

def fillRow (orderId : String) (fill : OrderFill) : Option OrderFillRow := do
  let price ← numeric fill.price
  let quantity ← numeric fill.quantity
  let fee ← numeric fill.fee
  return ⟨orderId, fill.fillId, fill.venueTradeId, price, quantity, fee, fill.filledAt⟩

/-- One more fill of an order, where no constraint stands against it. -/
def insertFill (message orderId : String) (rows : List OrderFillRow) (fill : OrderFill) :
    Except OrderError (List OrderFillRow) :=
  let own := rows.filter fun row => row.orderId = orderId
  match fillRow orderId fill with
  | none => .error (.databaseUnavailable message)
  | some row =>
      if fill.venueTradeId.isSome && own.any fun other => other.venueTradeId = fill.venueTradeId then
        .error (violated "uq_order_fills_venue_trade")
      else if own.any fun other => other.fillId = fill.fillId then .error (violated "uq_order_fills_fill_id")
      else .ok (rows ++ [row])

def discrepancyRow (orderId : String) (discrepancy : OrderDiscrepancy) : OrderDiscrepancyRow :=
  ⟨orderId, discrepancy.observedAt, discrepancy.detail, discrepancy.localState, discrepancy.venueState⟩

/-- The fills and the discrepancies that a record has and its rows do not. Rows of fills that it no longer
has are removed, after the new ones have come in. -/
def writeChildren (message : String) (record : OrderRecord) : OrderM (PostgresTables uuid accountId) Unit := fun s =>
  let orderId := record.orderId
  let storedFills := (s.fillsOf orderId).map OrderFillRow.fillId
  let intended := record.fills.map OrderFill.fillId
  let added := record.fills.filter fun fill => fill.fillId ∉ storedFills
  let seen := (s.discrepanciesOf orderId).map fun row => (row.observedAt, row.detail)
  let unseen := record.discrepancies.filter fun discrepancy => (discrepancy.observedAt, discrepancy.detail) ∉ seen
  match added.foldlM (insertFill message orderId) s.fills with
  | .error error => .error error
  | .ok fills =>
      .ok ((),
        { s with
          fills := fills.filter fun row => row.orderId ≠ orderId ∨ row.fillId ∈ intended
          discrepancies := s.discrepancies ++ unseen.map (discrepancyRow orderId) })

def insertRow (message : String) (record : OrderRecord) : OrderM (PostgresTables uuid accountId) Unit := fun s =>
  match columns record, conflict record s.orders with
  | none, _ => .error (.databaseUnavailable message)
  | some _, some error => .error error
  | some row, none => .ok ((), { s with orders := s.orders ++ [row] })

def setRow (message : String) (record : OrderRecord) : OrderM (PostgresTables uuid accountId) Unit := fun s =>
  match columns record, conflict record (s.orders.filter fun row => row.orderId ≠ record.orderId) with
  | none, _ => .error (.databaseUnavailable message)
  | some _, some error => .error error
  | some row, none =>
      .ok ((), { s with orders := s.orders.map fun old => if old.orderId = record.orderId then row else old })

def storeFailure : String := "could not store order: DBAPIError"

def updateFailure : String := "could not update order: DBAPIError"

def add (record : OrderRecord) : OrderM (PostgresTables uuid accountId) OrderRecord := do
  requireOwnAccount record
  insertRow storeFailure record
  writeChildren storeFailure record
  return record

def requireRow (orderId : String) : OrderM (PostgresTables uuid accountId) Unit := fun s =>
  if (s.row? orderId).isNone then .error (.keyError s!"No order {orderId} to update") else .ok ((), s)

def update (record : OrderRecord) : OrderM (PostgresTables uuid accountId) OrderRecord := do
  requireOwnAccount record
  requireRow record.orderId
  setRow updateFailure record
  writeChildren updateFailure record
  return record

/-! ### Reads -/

def load (row : OrderRow) : OrderM (PostgresTables uuid accountId) OrderRecord := fun s =>
  match s.hydrate row with
  | some record => .ok (record, s)
  | none => .error (.validationError row.orderId)

def loadOption : Option OrderRow → OrderM (PostgresTables uuid accountId) (Option OrderRecord)
  | none => pure none
  | some row => do return some (← load row)

def get (orderId : String) : OrderM (PostgresTables uuid accountId) (Option OrderRecord) := fun s =>
  loadOption (s.row? orderId) s

def getByClientOrderId (clientOrderId : String) : OrderM (PostgresTables uuid accountId) (Option OrderRecord) :=
  fun s => loadOption (s.orders.find? fun row => row.clientOrderId = clientOrderId) s

/-- Nothing comes in between the read and the insert here, so the insert loses no race to another worker. -/
def addOrGet (record : OrderRecord) : OrderM (PostgresTables uuid accountId) (OrderRecord × Bool) := do
  match ← getByClientOrderId record.clientOrderId with
  | some existing => return (existing, false)
  | none => return (← add record, true)

def byCreation (rows : List OrderRow) : List OrderRow := rows.insertionSort fun a b => a.createdAt ≤ b.createdAt

def openRows (s : PostgresTables uuid accountId) : List OrderRow :=
  byCreation (s.orders.filter fun row => !row.state.isTerminal)

def scan (s : PostgresTables uuid accountId) : OpenOrderScan where
  records := s.openRows.filterMap s.hydrate
  unreadable := (s.openRows.filter fun row => (s.hydrate row).isNone).map
    fun row => ⟨row.orderId, row.state, "ValidationError"⟩

def recordUnreadable (orderId detail : String) (now : Timestamp) : OrderM (PostgresTables uuid accountId) Unit :=
  fun s =>
    match s.row? orderId with
    | none => .error (.keyError s!"No order {orderId}")
    | some row =>
        .ok ((), { s with discrepancies := s.discrepancies ++ [⟨orderId, now, detail, row.state, none⟩] })

instance : OrderRepository (PostgresTables uuid accountId) where
  durable := true
  add := add
  addOrGet := addOrGet
  update := update
  get := get
  getByClientOrderId := getByClientOrderId
  allRecords := fun s => (byCreation s.orders).mapM load s
  openRecords := fun s => s.openRows.mapM load s
  scanOpen := fun s => .ok (s.scan, s)
  recordUnreadable := recordUnreadable

end PostgresTables

end Aetheris.OrderTables
