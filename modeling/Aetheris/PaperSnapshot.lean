import Aetheris.Lib.DecimalText
import Aetheris.CalendarText
import Aetheris.PaperIndex

namespace Aetheris.PaperSnapshot

open Lib Mutation IndexedLog DecimalText CalendarText Clock Enums RiskEngine OrderIdentity PaperRecords PaperEngine PaperLedger
  PaperRefinement PaperRuns PaperAccounts PaperOutcomes PaperViews PaperIndex

/-- What a snapshot is written in. -/
inductive Value
  | null
  | bool (b : Bool)
  | int (n : Int)
  | text (s : String)
  | list (items : List Value)
  | dict (entries : List (String × Value))

abbrev Document := List (String × Value)

inductive SnapshotError
  | schemaMismatch (detail : String)
  | missingKey (key : String)
  | malformed
  deriving DecidableEq

def schemaVersion : Int := 2

/-- What is written and read of the frozen records by `model_dump` and `model_validate`. -/
structure Models where
  dumpOrder : PaperOrder → Document
  validateOrder : Value → Option PaperOrder
  dumpTrade : PaperTrade → Document
  validateTrade : Value → Option PaperTrade
  dumpThesis : PositionThesis → Document
  validateThesis : Value → Option PositionThesis

/-- A `MutablePosition` with every amount in the digits it is kept in. -/
structure KeptPosition where
  positionId : String
  symbol : String
  side : String
  quantity : Numeral
  entryPrice : Numeral
  notional : Numeral
  margin : Numeral
  approvedLeverage : Numeral
  entryFee : Numeral
  openedAt : Instant
  updatedAt : Instant
  openingOrderId : String
  stopPrice : Option Numeral := none
  targetPrice : Option Numeral := none
  trailingStopPercent : Option Numeral := none
  trailExtreme : Option Numeral := none
  liquidationPrice : Option Numeral := none
  markPrice : Option Numeral := none
  markSource : Option String := none
  markStatus : Option String := none
  bestPrice : Option Numeral := none
  worstPrice : Option Numeral := none
  thesis : Option PositionThesis := none
  deriving DecidableEq

structure KeptSession where
  sessionDate : CalendarDay
  profitTarget : Numeral
  lossLimit : Numeral
  realizedPnl : Numeral
  fees : Numeral
  tradesClosed : Int
  ordersSubmitted : Int
  ordersRejected : Int
  lockState : RiskLockState
  lockReason : Option String
  lockedAt : Option Instant
  deriving DecidableEq

structure KeptState where
  accountId : String
  createdAt : Instant
  updatedAt : Instant
  startingBalance : Numeral
  balance : Numeral
  realizedPnl : Numeral
  totalFees : Numeral
  autonomousEnabled : Bool
  emergencyStopped : Bool
  emergencyReason : Option String
  positions : Dict String KeptPosition
  ordersByClientId : Dict String PaperOrder
  orderLog : List PaperOrder
  trades : List PaperTrade
  session : Option KeptSession
  sequence : Int
  deriving DecidableEq

def PositionSide.value : PositionSide → String
  | .long => "LONG"
  | .short => "SHORT"
  | .flat => "FLAT"

def RiskLockState.value : RiskLockState → String
  | .none => "NONE"
  | .dailyProfitTarget => "DAILY_PROFIT_TARGET"
  | .dailyLossLimit => "DAILY_LOSS_LIMIT"
  | .emergencyStop => "EMERGENCY_STOP"

def RiskLockState.of (value : String) : Option RiskLockState :=
  [RiskLockState.none, .dailyProfitTarget, .dailyLossLimit, .emergencyStop].find? fun s => RiskLockState.value s = value

section Writing

variable (models : Models)

def optional {α : Type} (write : α → Value) : Option α → Value
  | none => .null
  | some x => write x

def dec (value : Option Numeral) : Value := optional (fun x => .text (DecimalText.text x)) value

def dt (value : Option Instant) : Value := optional (fun t => .text (isoformat t.timestamp)) value

def positionOut (position : KeptPosition) : Value := .dict [
  ("position_id", .text position.positionId),
  ("symbol", .text position.symbol),
  ("side", .text position.side),
  ("quantity", dec position.quantity),
  ("entry_price", dec position.entryPrice),
  ("notional", dec position.notional),
  ("margin", dec position.margin),
  ("approved_leverage", dec position.approvedLeverage),
  ("entry_fee", dec position.entryFee),
  ("opened_at", dt position.openedAt),
  ("updated_at", dt position.updatedAt),
  ("opening_order_id", .text position.openingOrderId),
  ("stop_price", dec position.stopPrice),
  ("target_price", dec position.targetPrice),
  ("trailing_stop_percent", dec position.trailingStopPercent),
  ("trail_extreme", dec position.trailExtreme),
  ("liquidation_price", dec position.liquidationPrice),
  ("mark_price", dec position.markPrice),
  ("mark_source", optional .text position.markSource),
  ("mark_status", optional .text position.markStatus),
  ("best_price", dec position.bestPrice),
  ("worst_price", dec position.worstPrice),
  ("thesis", optional (fun thesis => .dict (models.dumpThesis thesis)) position.thesis)]

def sessionOut (session : KeptSession) : Value := .dict [
  ("session_date", .text (dateIsoformat session.sessionDate.number)),
  ("profit_target", dec session.profitTarget),
  ("loss_limit", dec session.lossLimit),
  ("realized_pnl", dec session.realizedPnl),
  ("fees", dec session.fees),
  ("trades_closed", .int session.tradesClosed),
  ("orders_submitted", .int session.ordersSubmitted),
  ("orders_rejected", .int session.ordersRejected),
  ("lock_state", .text (RiskLockState.value session.lockState)),
  ("lock_reason", optional .text session.lockReason),
  ("locked_at", dt session.lockedAt)]

def toSnapshot (state : KeptState) : Document := [
  ("schema_version", .int schemaVersion),
  ("account_id", .text state.accountId),
  ("created_at", dt state.createdAt),
  ("updated_at", dt state.updatedAt),
  ("starting_balance", dec state.startingBalance),
  ("balance", dec state.balance),
  ("realized_pnl", dec state.realizedPnl),
  ("total_fees", dec state.totalFees),
  ("autonomous_enabled", .bool state.autonomousEnabled),
  ("emergency_stopped", .bool state.emergencyStopped),
  ("emergency_reason", optional .text state.emergencyReason),
  ("sequence", .int state.sequence),
  ("positions", .dict (state.positions.map (positionOut models)).entries),
  ("order_log", .list (state.orderLog.map fun order => .dict (models.dumpOrder order))),
  ("trades", .list (state.trades.map fun trade => .dict (models.dumpTrade trade))),
  ("session", optional sessionOut state.session)]

end Writing

section Reading

variable (models : Models)

/-- `str(value)`; a container has no text that anything here could be read from. -/
def Value.str : Value → Except SnapshotError String
  | .null => .ok "None"
  | .bool b => .ok (if b then "True" else "False")
  | .int n => .ok (toString n)
  | .text s => .ok s
  | .list _ | .dict _ => .error .malformed

def Value.truth : Value → Bool
  | .null => false
  | .bool b => b
  | .int n => n ≠ 0
  | .text s => s ≠ ""
  | .list items => !items.isEmpty
  | .dict entries => !entries.isEmpty

def Value.toInt : Value → Except SnapshotError Int
  | .bool b => .ok (if b then 1 else 0)
  | .int n => .ok n
  | .text s => s.toInt?.elim (.error .malformed) .ok
  | _ => .error .malformed

def Value.repr : Value → String
  | .null => "None"
  | .bool b => if b then "True" else "False"
  | .int n => toString n
  | .text s => s!"'{s}'"
  | .list _ => "[...]"
  | .dict _ => "\x7b...\x7d"

def item (raw : Document) (key : String) : Except SnapshotError Value :=
  (raw.lookup key).elim (.error (.missingKey key)) .ok

def get (raw : Document) (key : String) (default : Value) : Value := (raw.lookup key).getD default

def entriesOf : Value → Except SnapshotError Document
  | .dict entries => .ok entries
  | _ => .error .malformed

def itemsOf : Value → Except SnapshotError (List Value)
  | .list items => .ok items
  | _ => .error .malformed

def conversion {α : Type} : Option α → Except SnapshotError α
  | some x => .ok x
  | none => .error .malformed

def undec : Value → Except SnapshotError (Option Numeral)
  | .null => .ok none
  | value => do return some (← conversion (DecimalText.read (← value.str)))

def undt : Value → Except SnapshotError (Option Instant)
  | .null => .ok none
  | value => do return some (← conversion (fromIsoformat (← value.str)))

/-- A text or nothing; the source keeps whatever it finds. -/
def textOrNone : Value → Except SnapshotError (Option String)
  | .null => .ok none
  | .text s => .ok (some s)
  | _ => .error .malformed

def required {α : Type} (detail : String) : Option α → Except SnapshotError α
  | some x => .ok x
  | none => .error (.schemaMismatch detail)

def present {α : Type} (read : Value → Except SnapshotError α) : Value → Except SnapshotError (Option α)
  | .null => .ok none
  | value => do return some (← read value)

def positionIn (value : Value) : Except SnapshotError KeptPosition := do
  let raw ← entriesOf value
  let opened ← undt (← item raw "opened_at")
  let updated ← undt (← item raw "updated_at")
  let quantity ← undec (← item raw "quantity")
  let entry ← undec (← item raw "entry_price")
  let notional ← undec (← item raw "notional")
  let margin ← undec (← item raw "margin")
  let leverage ← undec (← item raw "approved_leverage")
  let fee ← undec (← item raw "entry_fee")
  let missing := "a position is missing a required field"
  let opened ← required missing opened
  let updated ← required missing updated
  let quantity ← required missing quantity
  let entry ← required missing entry
  let notional ← required missing notional
  let margin ← required missing margin
  let leverage ← required missing leverage
  let fee ← required missing fee
  return {
    positionId := ← (← item raw "position_id").str
    symbol := ← (← item raw "symbol").str
    side := ← (← item raw "side").str
    quantity := quantity
    entryPrice := entry
    notional := notional
    margin := margin
    approvedLeverage := leverage
    entryFee := fee
    openedAt := opened
    updatedAt := updated
    openingOrderId := ← (← item raw "opening_order_id").str
    stopPrice := ← undec (get raw "stop_price" .null)
    targetPrice := ← undec (get raw "target_price" .null)
    trailingStopPercent := ← undec (get raw "trailing_stop_percent" .null)
    trailExtreme := ← undec (get raw "trail_extreme" .null)
    liquidationPrice := ← undec (get raw "liquidation_price" .null)
    markPrice := ← undec (get raw "mark_price" .null)
    markSource := ← textOrNone (get raw "mark_source" .null)
    markStatus := ← textOrNone (get raw "mark_status" .null)
    bestPrice := ← undec (get raw "best_price" .null)
    worstPrice := ← undec (get raw "worst_price" .null)
    thesis := ← present (fun value => conversion (models.validateThesis value)) (get raw "thesis" .null) }

def sessionIn (value : Value) : Except SnapshotError KeptSession := do
  let raw ← entriesOf value
  let target ← undec (← item raw "profit_target")
  let limit ← undec (← item raw "loss_limit")
  let realized ← undec (← item raw "realized_pnl")
  let fees ← undec (← item raw "fees")
  let missing := "the session is missing a required amount"
  let target ← required missing target
  let limit ← required missing limit
  let realized ← required missing realized
  let fees ← required missing fees
  return {
    sessionDate := ← conversion (dateFromIsoformat (← (← item raw "session_date").str))
    profitTarget := target
    lossLimit := limit
    realizedPnl := realized
    fees := fees
    tradesClosed := ← (← item raw "trades_closed").toInt
    ordersSubmitted := ← (← item raw "orders_submitted").toInt
    ordersRejected := ← (← item raw "orders_rejected").toInt
    lockState := ← conversion (RiskLockState.of (← (← item raw "lock_state").str))
    lockReason := ← textOrNone (get raw "lock_reason" .null)
    lockedAt := ← undt (get raw "locked_at" .null) }

def positionsIn : Document → Except SnapshotError (List (String × KeptPosition))
  | [] => .ok []
  | (symbol, raw) :: rest => do return (symbol, ← positionIn models raw) :: (← positionsIn rest)

def validated {α : Type} (validate : Value → Option α) : List Value → Except SnapshotError (List α)
  | [] => .ok []
  | raw :: rest => do return (← conversion (validate raw)) :: (← validated validate rest)

def isVersion : Value → Bool
  | .int n => n = schemaVersion
  | _ => false

def fromSnapshot (payload : Document) : Except SnapshotError KeptState := do
  let version := get payload "schema_version" .null
  if !isVersion version then
    let found := version.repr
    throw (.schemaMismatch (s!"snapshot schema {found} cannot be read by this build, which writes " ++
      s!"{schemaVersion}. Refusing rather than partially restoring an account."))
  let created ← undt (← item payload "created_at")
  let updated ← undt (← item payload "updated_at")
  let starting ← undec (← item payload "starting_balance")
  let balance ← undec (← item payload "balance")
  let realized ← undec (← item payload "realized_pnl")
  let fees ← undec (← item payload "total_fees")
  let missing := "the snapshot is missing a required account field"
  let created ← required missing created
  let updated ← required missing updated
  let starting ← required missing starting
  let balance ← required missing balance
  let realized ← required missing realized
  let fees ← required missing fees
  let orderLog ← validated models.validateOrder (← itemsOf (get payload "order_log" (.list [])))
  return {
    accountId := ← (← item payload "account_id").str
    createdAt := created
    updatedAt := updated
    startingBalance := starting
    balance := balance
    realizedPnl := realized
    totalFees := fees
    autonomousEnabled := (get payload "autonomous_enabled" (.bool false)).truth
    emergencyStopped := (get payload "emergency_stopped" (.bool false)).truth
    emergencyReason := ← textOrNone (get payload "emergency_reason" .null)
    positions := Dict.ofList (← positionsIn models (← entriesOf (get payload "positions" (.dict []))))
    ordersByClientId := rebuild PaperOrder.clientOrderId orderLog
    orderLog := orderLog
    trades := ← validated models.validateTrade (← itemsOf (get payload "trades" (.list [])))
    session := ← present sessionIn (get payload "session" .null)
    sequence := ← (get payload "sequence" (.int 0)).toInt }

end Reading

section RoundTrip

variable {models : Models}

/-- What was dumped of the frozen records in a state is what is validated again. -/
structure Models.Inverse (models : Models) (state : KeptState) : Prop where
  orders : ∀ order ∈ state.orderLog, models.validateOrder (.dict (models.dumpOrder order)) = some order
  trades : ∀ trade ∈ state.trades, models.validateTrade (.dict (models.dumpTrade trade)) = some trade
  theses : ∀ position ∈ state.positions.values, ∀ thesis ∈ position.thesis,
    models.validateThesis (.dict (models.dumpThesis thesis)) = some thesis

theorem undec_text {s : String} {x : Numeral} (h : DecimalText.read s = some x) : undec (.text s) = .ok (some x) := by
  change (do return some (← conversion (DecimalText.read s))) = _
  rw [h]
  rfl

@[simp] theorem undec_dec (value : Option Numeral) : undec (dec value) = .ok value := by
  cases value with
  | none => rfl
  | some x =>
      rw [dec, optional]
      exact undec_text (read_text x)

theorem undt_text {s : String} {t : Instant} (h : fromIsoformat s = some t) : undt (.text s) = .ok (some t) := by
  change (do return some (← conversion (fromIsoformat s))) = _
  rw [h]
  rfl

@[simp] theorem undt_dt (value : Option Instant) : undt (dt value) = .ok value := by
  cases value with
  | none => rfl
  | some t =>
      rw [dt, optional]
      exact undt_text (fromIsoformat_isoformat t)

@[simp] theorem textOrNone_optional (value : Option String) : textOrNone (optional .text value) = .ok value := by
  cases value <;> rfl

theorem present_thesis {thesis : Option PositionThesis}
    (h : ∀ t ∈ thesis, models.validateThesis (.dict (models.dumpThesis t)) = some t) :
    present (fun value => conversion (models.validateThesis value))
      (optional (fun t => .dict (models.dumpThesis t)) thesis) = .ok thesis := by
  cases thesis with
  | none => rfl
  | some t =>
      change (do return some (← conversion (models.validateThesis (.dict (models.dumpThesis t))))) = _
      rw [h t rfl]
      rfl

theorem positionIn_positionOut {position : KeptPosition}
    (h : ∀ thesis ∈ position.thesis, models.validateThesis (.dict (models.dumpThesis thesis)) = some thesis) :
    positionIn models (positionOut models position) = .ok position := by
  simp [positionIn, positionOut, entriesOf, item, get, List.lookup_cons, required, present_thesis h, Value.str,
    bind, Except.bind, pure, Except.pure]

theorem sessionIn_sessionOut (session : KeptSession) : sessionIn (sessionOut session) = .ok session := by
  have hlock : RiskLockState.of (RiskLockState.value session.lockState) = some session.lockState := by
    cases session.lockState <;> rfl
  simp [sessionIn, sessionOut, entriesOf, item, get, List.lookup_cons, required, Value.str, Value.toInt,
    dateFromIsoformat_dateIsoformat, hlock, conversion, bind, Except.bind, pure, Except.pure]

theorem positionsIn_map {entries : List (String × KeptPosition)}
    (h : ∀ e ∈ entries, ∀ thesis ∈ e.2.thesis,
      models.validateThesis (.dict (models.dumpThesis thesis)) = some thesis) :
    positionsIn models (entries.map fun e => (e.1, positionOut models e.2)) = .ok entries := by
  induction entries with
  | nil => rfl
  | cons e entries ih =>
      have hrest := ih fun e' he' => h e' (List.mem_cons_of_mem _ he')
      rw [List.map_cons, positionsIn, positionIn_positionOut (h e (List.mem_cons_self ..)), hrest]
      rfl

theorem validated_map {α : Type} {dump : α → Document} {validate : Value → Option α} {items : List α}
    (h : ∀ x ∈ items, validate (.dict (dump x)) = some x) :
    validated validate (items.map fun x => .dict (dump x)) = .ok items := by
  induction items with
  | nil => rfl
  | cons x items ih =>
      have hrest := ih fun y hy => h y (List.mem_cons_of_mem _ hy)
      rw [List.map_cons, validated, h x (List.mem_cons_self ..), hrest]
      rfl

theorem present_session (session : Option KeptSession) :
    present sessionIn (optional sessionOut session) = .ok session := by
  cases session with
  | none => rfl
  | some s =>
      change (do return some (← sessionIn (sessionOut s))) = _
      rw [sessionIn_sessionOut]
      rfl

/-- Every field comes back as it was written; the index is what the log rebuilds. -/
theorem fromSnapshot_toSnapshot {state : KeptState} (h : models.Inverse state) :
    fromSnapshot models (toSnapshot models state) =
      .ok { state with ordersByClientId := rebuild PaperOrder.clientOrderId state.orderLog } := by
  have hpositions : positionsIn models (state.positions.map (positionOut models)).entries =
      .ok state.positions.entries :=
    positionsIn_map fun e he => h.theses e.2 (List.mem_map_of_mem he)
  have horders := validated_map h.orders
  have htrades := validated_map h.trades
  have hsession := present_session state.session
  simp [fromSnapshot, toSnapshot, entriesOf, itemsOf, item, get, List.lookup_cons, required, Value.str, Value.toInt,
    Value.truth, isVersion, hpositions, horders, htrades, hsession, Dict.ofList_entries, bind, Except.bind, pure,
    Except.pure]

theorem round_trip_iff {state : KeptState} (h : models.Inverse state) :
    fromSnapshot models (toSnapshot models state) = .ok state ↔
      state.ordersByClientId = rebuild PaperOrder.clientOrderId state.orderLog := by
  rw [fromSnapshot_toSnapshot h, Except.ok.injEq]
  constructor
  · intro hsame
    exact (congrArg KeptState.ordersByClientId hsame).symm
  · intro hindex
    rw [← hindex]

end RoundTrip

section Denotations

def PositionSide.of (value : String) : Option PositionSide :=
  [PositionSide.long, .short, .flat].find? fun s => PositionSide.value s = value

/-- The position by its values, if its side is one. -/
def KeptPosition.denotes (kept : KeptPosition) : Option MutablePosition :=
  (PositionSide.of kept.side).map fun side => {
    positionId := kept.positionId
    symbol := kept.symbol
    side := side
    quantity := kept.quantity.value
    entryPrice := kept.entryPrice.value
    notional := kept.notional.value
    margin := kept.margin.value
    approvedLeverage := kept.approvedLeverage.value
    entryFee := kept.entryFee.value
    openedAt := kept.openedAt.timestamp
    openingOrderId := kept.openingOrderId
    stopPrice := kept.stopPrice.map Numeral.value
    targetPrice := kept.targetPrice.map Numeral.value
    trailingStopPercent := kept.trailingStopPercent.map Numeral.value
    liquidationPrice := kept.liquidationPrice.map Numeral.value
    thesis := kept.thesis
    updatedAt := kept.updatedAt.timestamp
    trailExtreme := kept.trailExtreme.map Numeral.value
    markPrice := kept.markPrice.map Numeral.value
    markSource := kept.markSource
    markStatus := kept.markStatus
    bestPrice := kept.bestPrice.map Numeral.value
    worstPrice := kept.worstPrice.map Numeral.value }

def KeptSession.session (kept : KeptSession) : MutableSession where
  sessionDate := kept.sessionDate.number
  profitTarget := kept.profitTarget.value
  lossLimit := kept.lossLimit.value
  realizedPnl := kept.realizedPnl.value
  fees := kept.fees.value
  tradesClosed := kept.tradesClosed.toNat
  ordersSubmitted := kept.ordersSubmitted.toNat
  ordersRejected := kept.ordersRejected.toNat
  lockState := kept.lockState
  lockReason := kept.lockReason
  lockedAt := kept.lockedAt.map Instant.timestamp

def KeptState.account (kept : KeptState) (positions : Dict String MutablePosition) : PaperState where
  accountId := kept.accountId
  createdAt := kept.createdAt.timestamp
  updatedAt := kept.updatedAt.timestamp
  startingBalance := kept.startingBalance.value
  balance := kept.balance.value
  realizedPnl := kept.realizedPnl.value
  totalFees := kept.totalFees.value
  autonomousEnabled := kept.autonomousEnabled
  emergencyStopped := kept.emergencyStopped
  emergencyReason := kept.emergencyReason
  positions := positions
  ordersByClientId := kept.ordersByClientId
  orderLog := kept.orderLog
  trades := kept.trades
  session := kept.session.map KeptSession.session
  sequence := kept.sequence.toNat

/-- What is kept has the values of a state, whatever the digits they are kept in. -/
def KeptState.Denotes (kept : KeptState) (s : PaperState) : Prop :=
  kept.positions.map KeptPosition.denotes = s.positions.map some ∧ s = kept.account s.positions

instance (kept : KeptState) (s : PaperState) : Decidable (kept.Denotes s) := inferInstanceAs (Decidable (_ ∧ _))

variable {kept : KeptState} {s t : PaperState}

theorem KeptState.Denotes.unique (hs : kept.Denotes s) (ht : kept.Denotes t) : s = t := by
  have hpositions : s.positions = t.positions := by
    have hmap := congrArg Dict.entries (hs.1.symm.trans ht.1)
    ext1
    refine List.map_injective_iff.mpr ?_ hmap
    rintro ⟨k, p⟩ ⟨k', p'⟩ hsame
    obtain ⟨hk, hp⟩ := Prod.mk.inj hsame
    exact Prod.ext hk (Option.some.inj hp)
  rw [hs.2, ht.2, hpositions]

theorem KeptState.Denotes.orderLog (h : kept.Denotes s) : kept.orderLog = s.orderLog := (congrArg PaperState.orderLog h.2).symm

theorem KeptState.Denotes.ordersByClientId (h : kept.Denotes s) : kept.ordersByClientId = s.ordersByClientId :=
  (congrArg PaperState.ordersByClientId h.2).symm

end Denotations

section Shelves

variable {config : PaperEngineConfig} {now : Timestamp} {marks : Marks} {r : Repository} {id : String} {α β : Type}

/-- One order more on the log and in its index, under the id. -/
def Filed (config : PaperEngineConfig) (id : String) (before after : List PaperOrder × Dict String PaperOrder) : Prop :=
  ∃ order : PaperOrder, order.clientOrderId = id ∧ after =
    (newest config.maxOrderLog (before.1 ++ [order]),
      evict PaperOrder.clientOrderId config.maxOrderLog (before.1 ++ [order]) (before.2.set order.clientOrderId order))

abbrev Files (config : PaperEngineConfig) (id : String) (x : PaperM α) : Prop := Once shelf (Filed config id) x

theorem files_recordOrder {order : PaperOrder} (h : order.clientOrderId = id) :
    Files config id (recordOrder config order) := fun _ => .inr ⟨order, h, rfl⟩

theorem files_reject {symbol : String} {request : SubmitOrderRequest} {refusal : PaperGate.RiskRefusal} {reduceOnly : Bool}
    {from_ : Provenance} : Files config id (reject config symbol request id refusal now marks reduceOnly from_) := by
  refine once_after (silent_ensureSession undated_shelf) fun _ => once_after (silent_modify fun _ => rfl) fun _ => ?_
  refine once_after (silent_nextSequence undated_shelf) fun number => once_after (silent_building _ _) fun _ => ?_
  refine once_then (files_recordOrder rfl) fun _ => silent_bind (silent_touch undated_shelf) fun _ => ?_
  exact silent_bind (silent_buildAccount undated_shelf) fun _ => silent_pure

theorem files_openPosition {request : SubmitOrderRequest} {symbol : String} {entry : PaperPricing.Entry}
    {leverage : Leverage.LeverageDecision} {age : Option Money.Decimal} {detail : Option String} {from_ : Provenance} :
    Files config id (openPosition config request symbol id entry now leverage age marks detail from_) := by
  refine once_after (silent_ensureSession undated_shelf) fun _ => once_after (silent_nextSequence undated_shelf) fun _ => ?_
  refine once_after (silent_nextSequence undated_shelf) fun _ => once_after (silent_modify fun _ => rfl) fun _ => ?_
  refine once_after (silent_nextSequence undated_shelf) fun _ => once_after (silent_building _ _) fun _ => ?_
  refine once_after (silent_building _ _) fun _ => once_then (files_recordOrder rfl) fun _ => ?_
  refine silent_bind (silent_touch undated_shelf) fun _ => silent_bind (silent_reportPosition _) fun _ => ?_
  exact silent_bind (silent_buildAccount undated_shelf) fun _ => silent_pure

theorem files_conclude {request : SubmitOrderRequest} {symbol : String} {leverage : Leverage.LeverageDecision}
    {age : Option Money.Decimal} {detail : Option String} {from_ : Provenance}
    (decision : Except PaperPricing.Decline PaperPricing.Entry) :
    Files config id (conclude config request symbol id now leverage age marks detail from_ decision) := by
  rcases decision with (refusal | refusal | error) | entry
  · exact files_reject
  · exact files_reject
  · exact once_silent silent_throw
  · exact files_openPosition

/-- The log and its index as they were, or with one more order under the id. -/
def Shelving (config : PaperEngineConfig) (id : String) (r t : Repository) : Prop :=
  shelf t = shelf r ∨ Filed config id (shelf r) (shelf t)

variable (config now r) in
theorem shelf_onDay : shelf (onDay config now r) = shelf r := view_onDay undated_shelf r

end Shelves

section Runs

variable [Runtime] {config : PaperEngineConfig} {now : Timestamp} {marks : Marks} {r : Repository} {op : Operation}

/-- The id under which a call may record an order. -/
def filedUnder (r : Repository) : Operation → Option String
  | .submitOrder request _ _ _ _ _ _ _ _ _ =>
      if (repeated r request).isSome then none else some (submittedId request r.state.sequence)
  | .refuse request _ _ _ _ _ => some (submittedId request r.state.sequence)
  | .closePosition _ _ _ _ _ => some s!"paper-close-{r.state.sequence + 1}"
  | _ => none

section Submissions

variable {request : SubmitOrderRequest} {mark : MarkPrice} {filters : Option SymbolFilters}
  {leverage : Leverage.LeverageDecision} {paperEnabled : Bool} {detail : Option String} {checks : List String}
  {riskMax : Option Money.Decimal}

theorem shelf_repeated {existing : PaperOrder} (hknown : repeated r request = some existing) :
    shelf ((PaperEngine.submitOrder config request now mark filters leverage paperEnabled marks detail checks
      riskMax).run r).2 = shelf r := by
  obtain ⟨session, hsession, _⟩ := ensureSession_ok config now r
  rw [PaperEngine.submitOrder, run_bind_ok hsession]
  dsimp only
  rw [run_bind_ok (clientOrderIdOf_run request), run_bind_ok load_run, repeated_identified, hknown]
  exact (silent_replayed undated_shelf _ _ _ (identified config now request r)).trans (shelf_onDay _ _ _)

theorem shelf_submitted (hnew : repeated r request = none) :
    Shelving config (submittedId request r.state.sequence) r
      ((PaperEngine.submitOrder config request now mark filters leverage paperEnabled marks detail checks
        riskMax).run r).2 := by
  rw [submitOrder_decided _ _ _ _ _ _ _ _ _ _ _ hnew, onDay_sequence, Shelving, ← shelf_onDay config now r]
  exact files_conclude _ (identified config now request r)

end Submissions

theorem shelf_refused {request : SubmitOrderRequest} {code : Enums.RiskRejectionCode} {detail : String}
    {from_ : Provenance} : Shelving config (submittedId request r.state.sequence) r
      ((PaperEngine.refuse config request now code detail marks from_).run r).2 := by
  obtain ⟨session, hsession, _⟩ := ensureSession_ok config now r
  rw [PaperEngine.refuse, run_bind_ok hsession, run_bind_ok (clientOrderIdOf_run request), onDay_sequence, Shelving,
    ← shelf_onDay config now r]
  exact files_reject (withSequence _ (onDay config now r))

theorem shelf_closed {symbol : String} {mark : MarkPrice} {reason : PaperExitReason} :
    Shelving config s!"paper-close-{r.state.sequence + 1}" r
      ((PaperEngine.closePosition config symbol now mark reason marks).run r).2 := by
  obtain ⟨session, hsession, _⟩ := ensureSession_ok config now r
  rw [PaperEngine.closePosition, run_bind_ok hsession]
  dsimp only
  rw [run_bind_ok load_run, Shelving, ← shelf_onDay config now r]
  cases hheld : (onDay config now r).state.positions.get? (Runtime.upper symbol) with
  | none =>
      dsimp only
      rw [run_bind_ok (generatedId_run _), onDay_sequence]
      exact files_reject (withSequence _ (onDay config now r))
  | some position =>
      dsimp only
      rw [run_bind_ok (generatedId_run _), onDay_sequence]
      split
      next => exact files_reject (withSequence _ (onDay config now r))
      next =>
        refine once_after (unlogged_close _ _ _) (fun trade => ?_) (withSequence _ (onDay config now r))
        refine once_after (silent_nextSequence undated_shelf) fun _ => once_after (silent_building _ _) fun _ => ?_
        refine once_then (files_recordOrder rfl) fun _ => silent_bind (silent_touch undated_shelf) fun _ => ?_
        exact silent_bind (silent_buildAccount undated_shelf) fun _ => silent_pure

variable (config r op) in
theorem shelf_after : shelf (after config r op) = shelf r ∨
    ∃ id ∈ filedUnder r op, Filed config id (shelf r) (shelf (after config r op)) := by
  cases op with
  | submitOrder request now mark filters leverage paperEnabled marks detail checks riskMax =>
      cases hknown : repeated r request with
      | some existing => exact .inl (shelf_repeated hknown)
      | none =>
          refine (shelf_submitted hknown).imp_right fun hfiled => ⟨_, ?_, hfiled⟩
          rw [filedUnder, hknown]
          rfl
  | refuse request now code detail marks from_ => exact shelf_refused.imp_right fun hfiled => ⟨_, rfl, hfiled⟩
  | closePosition symbol now mark reason marks => exact shelf_closed.imp_right fun hfiled => ⟨_, rfl, hfiled⟩
  | replay id now marks => exact .inl (silent_replay undated_shelf id r)
  | tick now marks => exact .inl (unlogged_tick r)
  | setEmergencyStop engaged reason now => exact .inl (silent_setEmergencyStop undated_shelf engaged reason r)
  | snapshot now marks => exact .inl (silent_snapshot undated_shelf r)

/-- A call puts no order out of the log under an id that another order of the
log has, or its own. -/
def Retiring (config : PaperEngineConfig) (r : Repository) (op : Operation) : Prop :=
  ∀ id ∈ filedUnder r op, Retires (fun k => k) config.maxOrderLog (loggedIds r.state ++ [id])

/-- The index is what the log rebuilds. -/
def Rebuilt (s : PaperState) : Prop := s.ordersByClientId = rebuild PaperOrder.clientOrderId s.orderLog

theorem rebuilt_after (h : Rebuilt r.state) (hop : Retiring config r op) : Rebuilt (after config r op).state := by
  rcases shelf_after config r op with hshelf | ⟨id, hid, order, rfl, hfiled⟩
  · rw [shelf, shelf, Prod.mk.injEq] at hshelf
    rw [Rebuilt, hshelf.1, hshelf.2]
    exact h
  · have hretires : Retires PaperOrder.clientOrderId config.maxOrderLog (r.state.orderLog ++ [order]) := by
      rw [← retires_map, List.map_append]
      exact hop _ hid
    rw [shelf, Prod.mk.injEq] at hfiled
    have hset : r.state.ordersByClientId.set order.clientOrderId order =
        rebuild PaperOrder.clientOrderId (r.state.orderLog ++ [order]) := by
      rw [rebuild_append, show r.state.ordersByClientId = _ from h]
    rw [Rebuilt, hfiled.1, hfiled.2]
    change evict _ _ _ (r.state.ordersByClientId.set order.clientOrderId order) = _
    rw [hset]
    exact evict_rebuild_iff.mpr hretires

theorem rebuilt_run {startingBalance : Money.Decimal} {durability : Durability} {calls : List Call}
    (h : Along (Call.leaves config) (Call.Meets (Retiring config)) (opening startingBalance now durability) calls) :
    Rebuilt (runCalls config (opening startingBalance now durability) calls).state := by
  refine foldl_invariant (I := fun r => Rebuilt r.state) (fun r call hr hcall => ?_) h
    (show Rebuilt (fresh startingBalance now) from rfl)
  cases call with
  | keep op => exact rebuilt_after hr hcall
  | reset now startingBalance =>
      rw [Call.leaves, reset_eq_snapshot]
      exact rebuilt_after (r := opening _ _ _) rfl fun id hid => (nomatch hid)

end Runs

def refusal (id : String) : Operation :=
  .refuse { symbol := "BTCUSDT", side := .buy, clientOrderId := some id } 0 .dailyProfitTarget "locked" .empty {}

/-- What `model_dump` writes of an order that was refused at the epoch for its size alone. -/
def dumpRefused (order : PaperOrder) : Document := [
  ("order_id", .text order.orderId),
  ("client_order_id", .text order.clientOrderId),
  ("symbol", .text order.symbol),
  ("side", .text order.side.value),
  ("order_type", .text "MARKET"),
  ("state", .text order.state.value),
  ("reduce_only", .bool order.reduceOnly),
  ("requested_quantity", .text "1E-8"),
  ("filled_quantity", .text "0"),
  ("average_fill_price", .null),
  ("fills", .list []),
  ("leverage", .null),
  ("created_at", .text "1970-01-01T00:00:00Z"),
  ("updated_at", .text "1970-01-01T00:00:00Z"),
  ("rejection_code", optional (fun code : Enums.RiskRejectionCode => .text code.value) order.rejectionCode),
  ("rejection_detail", optional .text order.rejectionDetail),
  ("idempotent_replay", .bool order.idempotentReplay),
  ("risk_verdict_detail", optional .text order.riskVerdictDetail)]

/-- Orders that were refused, and are validated as what they were. -/
def refusedModels (orders : List PaperOrder) : Models where
  dumpOrder := dumpRefused
  validateOrder value := match value with
    | .dict entries => match entries.lookup "order_id" with
      | some (.text id) => orders.find? fun order => order.orderId = id
      | _ => none
    | _ => none
  dumpTrade _ := []
  validateTrade _ := none
  dumpThesis _ := []
  validateThesis _ := none

def epoch : Instant := ⟨0, by decide⟩

/-- An account on which orders were refused on the first day and nothing else happened. -/
def refusedAccount (s : PaperState) : KeptState where
  accountId := s.accountId
  createdAt := epoch
  updatedAt := epoch
  startingBalance := { coefficient := 100000, exponent := -2 }
  balance := { coefficient := 1, exponent := 3 }
  realizedPnl := { coefficient := 0 }
  totalFees := { negative := true, coefficient := 0, exponent := -8 }
  autonomousEnabled := false
  emergencyStopped := false
  emergencyReason := none
  positions := .empty
  ordersByClientId := s.ordersByClientId
  orderLog := s.orderLog
  trades := []
  session := some {
    sessionDate := ⟨0, datable_epoch⟩
    profitTarget := { coefficient := 10 }
    lossLimit := { negative := true, coefficient := 1 }
    realizedPnl := { coefficient := 0 }
    fees := { coefficient := 0 }
    tradesClosed := 0
    ordersSubmitted := 0
    ordersRejected := s.session.elim 0 fun session => session.ordersRejected
    lockState := .none
    lockReason := none
    lockedAt := none }
  sequence := s.sequence

def refusedOnce : Repository :=
  @runCalls referenceRuntime exampleConfig (opening 1000 0 .inMemory) [.keep (refusal "first")]

theorem refusedOnce_inverse :
    (refusedModels refusedOnce.state.orderLog).Inverse (refusedAccount refusedOnce.state) where
  orders := by
    have hall : ∀ order ∈ refusedOnce.state.orderLog,
        (refusedModels refusedOnce.state.orderLog).validateOrder (.dict (dumpRefused order)) = some order := by
      decide +kernel
    exact hall
  trades _ h := (nomatch h)
  theses _ h := (nomatch h)

def crowdedConfig : PaperEngineConfig := { exampleConfig with maxOrderLog := 10 }

/-- A refused order takes the id of the next closing, which is recorded beside
it, and nine more put the first one out of the log. -/
def crowdedCalls : List Call :=
  .keep (refusal "paper-close-2") :: .keep (.closePosition "BTCUSDT" 0 exampleMark .manualClose .empty) ::
    ["a", "b", "c", "d", "e", "f", "g", "h", "i"].map fun id => .keep (refusal id)

def crowded : Repository := @runCalls referenceRuntime crowdedConfig (opening 1000 0 .inMemory) crowdedCalls

theorem crowded_inverse : (refusedModels crowded.state.orderLog).Inverse (refusedAccount crowded.state) where
  orders := by
    have hall : ∀ order ∈ crowded.state.orderLog,
        (refusedModels crowded.state.orderLog).validateOrder (.dict (dumpRefused order)) = some order := by
      decide +kernel
    exact hall
  trades _ h := (nomatch h)
  theses _ h := (nomatch h)

end Aetheris.PaperSnapshot
