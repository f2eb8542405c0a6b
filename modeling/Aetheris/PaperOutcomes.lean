import Aetheris.PaperAccounts

namespace Aetheris.PaperOutcomes

open Lib Mutation Money Clock Enums Leverage RiskEngine OrderIdentity PaperRecords PaperGate PaperPricing PaperEngine
  PaperLedger PaperRefinement PaperRuns PaperAccounts

/-- What a position must be for an account that holds it to be reported. -/
structure Reports (t : EntryTerms) : Prop where
  quantity : 0 < t.quantity
  entryPrice : 0 < t.entryPrice
  notional : 0 < t.notional
  margin : 0 < t.margin
  leverage : 1 ≤ t.approvedLeverage
  entryFee : 0 ≤ t.entryFee

def Reportable (s : PaperState) : Prop := ∀ p ∈ s.positions.values, Reports p.toEntryTerms

/-- The session that is stored is the one of the day. -/
def Opened (now : Timestamp) (r : Repository) : Prop := ∃ s, r.state.session = some s ∧ s.sessionDate = date now

def recorded (config : PaperEngineConfig) (order : PaperOrder) (s : PaperState) : PaperState :=
  logOrder config order { s with ordersByClientId := s.ordersByClientId.set order.clientOrderId order }

/-- The account after an order was refused. -/
def noted (config : PaperEngineConfig) (now : Timestamp) (order : PaperOrder) (r : Repository) : Repository :=
  { r with
    state := { recorded config order { r.state with
      session := r.state.session.map fun s => { s with ordersRejected := s.ordersRejected + 1 }
      sequence := r.state.sequence + 1 } with updatedAt := now } }

/-- The account after an order was filled. -/
def filled (config : PaperEngineConfig) (now : Timestamp) (order : PaperOrder) (position : MutablePosition)
    (r : Repository) : Repository :=
  let booked := bookEntry position (withSequence (r.state.sequence + 2) r)
  { booked with
    state := { recorded config order { booked.state with sequence := r.state.sequence + 3 } with updatedAt := now } }

/-- The account after a position was closed. -/
def left (config : PaperEngineConfig) (now : Timestamp) (order : PaperOrder) (position : MutablePosition) (exit : Exit)
    (reason : PaperExitReason) (r : Repository) : Repository :=
  let next := r.state.sequence + 1
  let booked := bookExit config now position exit reason s!"paper-trade-{next}" (withSequence next r)
  { booked with
    state := { recorded config order { booked.state with sequence := r.state.sequence + 2 } with updatedAt := now } }

/-- The sequence once a submission goes under its id. -/
def issued (request : SubmitOrderRequest) (sequence : Nat) : Nat :=
  match request.clientOrderId with
  | some id => if id = "" then sequence + 1 else sequence
  | none => sequence + 1

/-- The account as a submission is decided on. -/
def identified (config : PaperEngineConfig) (now : Timestamp) (request : SubmitOrderRequest) (r : Repository) :
    Repository :=
  withSequence (issued request (onDay config now r).state.sequence) (onDay config now r)

section Primitives

variable {config : PaperEngineConfig} {now : Timestamp} {marks : Marks} {r : Repository}

theorem building_run {ok : Bool} {record : String} (h : ok = true) : (building ok record).run r = (.ok (), r) := by
  rw [building, if_pos h]
  rfl

theorem building_fails {ok : Bool} {record : String} (h : ok = false) :
    (building ok record).run r = (.error (.validation record), r) := by
  rw [building, h]
  rfl

variable (config) in
theorem ensureSession_opened (h : Opened now r) : ∃ s, (ensureSession config now).run r = (.ok s, r) := by
  obtain ⟨s, hs, hday⟩ := h
  refine ⟨s, ?_⟩
  rw [ensureSession_run, hs]
  exact if_pos hday

variable (config now) in
theorem ensureSession_ok (r : Repository) :
    ∃ s, (ensureSession config now).run r = (.ok s, onDay config now r) ∧ Opened now (onDay config now r) := by
  rw [onDay, ensureSession_run]
  cases hs : r.state.session with
  | none => exact ⟨_, rfl, _, rfl, rfl⟩
  | some s =>
      dsimp only
      split
      next hday => exact ⟨_, rfl, s, hs, hday⟩
      next => exact ⟨_, rfl, _, rfl, rfl⟩

/-- The first look of a day starts its session and changes nothing else. -/
theorem onDay_state (r : Repository) :
    (onDay config now r).state = { r.state with session := (onDay config now r).state.session } := by
  rw [onDay, ensureSession_run]
  cases hs : r.state.session with
  | none => rfl
  | some s =>
      dsimp only
      split
      · rfl
      · rfl

variable (config now marks) in
theorem positionModel_terms (p : MutablePosition) :
    (positionModel config now marks p).toEntryTerms = p.toEntryTerms := by
  unfold positionModel
  cases marks.get? p.symbol <;> rfl

theorem validates_iff {p : PaperPosition} : p.validates = true ↔ Reports p.toEntryTerms := by
  simp only [PaperPosition.validates, Bool.and_eq_true, decide_eq_true_eq]
  constructor
  · rintro ⟨⟨⟨⟨⟨hquantity, hprice⟩, hnotional⟩, hmargin⟩, hleverage⟩, hfee⟩
    exact ⟨hquantity, hprice, hnotional, hmargin, hleverage, hfee⟩
  · intro h
    exact ⟨⟨⟨⟨⟨h.quantity, h.entryPrice⟩, h.notional⟩, h.margin⟩, h.leverage⟩, h.entryFee⟩

theorem reportPosition_run {p : MutablePosition} (h : Reports p.toEntryTerms) :
    (reportPosition config now marks p).run r = (.ok (positionModel config now marks p), r) := by
  have hvalid : (positionModel config now marks p).validates = true := by
    rw [validates_iff, positionModel_terms]
    exact h
  exact run_bind_ok (building_run hvalid)

variable (config now marks r) in
theorem reportPositions_run {ps : List MutablePosition} (h : ∀ p ∈ ps, Reports p.toEntryTerms) :
    ∃ models, (reportPositions config now marks ps).run r = (.ok models, r) := by
  induction ps with
  | nil => exact ⟨[], rfl⟩
  | cons p rest ih =>
      obtain ⟨models, hrest⟩ := ih fun q hq => h q (List.mem_cons_of_mem _ hq)
      refine ⟨positionModel config now marks p :: models, ?_⟩
      rw [reportPositions, run_bind_ok (reportPosition_run (h p (List.mem_cons_self ..))), run_bind_ok hrest]
      rfl

variable (config now marks r) in
theorem reportHeld_run {held : Option MutablePosition} (h : ∀ p ∈ held, Reports p.toEntryTerms) :
    ∃ model, (reportHeld config now marks held).run r = (.ok model, r) := by
  cases held with
  | none => exact ⟨none, rfl⟩
  | some p => exact ⟨_, run_bind_ok (reportPosition_run (h p rfl))⟩

variable (config marks) in
theorem buildAccount_run (hopened : Opened now r) (h : Reportable r.state) :
    ∃ account, (buildAccount config now marks).run r = (.ok account, r) := by
  obtain ⟨positions, hpositions⟩ := reportPositions_run config now marks r h
  obtain ⟨session, hsession⟩ := ensureSession_opened config hopened
  refine ⟨accountOf r.state r.durability positions session, ?_⟩
  change (reportPositions config now marks r.state.positions.values >>= _).run r = _
  rw [run_bind_ok hpositions, run_bind_ok hsession]
  rfl

/-- An account that can be reported is reported, and its report changes nothing. -/
theorem reporting_run {α : Type} {f : PaperAccount → α} (hopened : Opened now r) (h : Reportable r.state) :
    ∃ account, (buildAccount config now marks >>= fun account => pure (f account)).run r = (.ok (f account), r) := by
  obtain ⟨account, haccount⟩ := buildAccount_run config marks hopened h
  exact ⟨account, run_bind_ok haccount⟩

end Primitives

section Records

variable {config : PaperEngineConfig} {now : Timestamp} {r : Repository} {order : PaperOrder} {s s' : PaperState}

@[simp] theorem onDay_orderLog : (onDay config now r).state.orderLog = r.state.orderLog := by
  rw [onDay_state]

@[simp] theorem onDay_ordersByClientId : (onDay config now r).state.ordersByClientId = r.state.ordersByClientId := by
  rw [onDay_state]

variable (config now r) in
@[simp] theorem onDay_positions : (onDay config now r).state.positions = r.state.positions := by
  rw [onDay_state]

@[simp] theorem withSequence_orderLog (n : Nat) : (withSequence n r).state.orderLog = r.state.orderLog := rfl

@[simp] theorem withSequence_ordersByClientId (n : Nat) :
    (withSequence n r).state.ordersByClientId = r.state.ordersByClientId := rfl

@[simp] theorem withSequence_sequence (n : Nat) : (withSequence n r).state.sequence = n := rfl

@[simp] theorem onDay_sequence : (onDay config now r).state.sequence = r.state.sequence := by
  rw [onDay_state]

variable (config order) in
/-- What the log and the index become depends on the log and the index only. -/
theorem recorded_congr (hlog : s.orderLog = s'.orderLog) (hindex : s.ordersByClientId = s'.ordersByClientId) :
    (recorded config order s).orderLog = (recorded config order s').orderLog ∧
      (recorded config order s).ordersByClientId = (recorded config order s').ordersByClientId := by
  simp only [recorded, logOrder, hlog, hindex, and_self]

theorem recorded_noted : (noted config now order r).state.orderLog = (recorded config order r.state).orderLog ∧
    (noted config now order r).state.ordersByClientId = (recorded config order r.state).ordersByClientId := by
  simp only [noted, recorded, logOrder, and_self]

theorem noted_positions : (noted config now order r).state.positions = r.state.positions := by
  simp only [noted, recorded, logOrder]

theorem reportable_noted (h : Reportable r.state) : Reportable (noted config now order r).state := by
  unfold Reportable
  rw [noted_positions]
  exact h

variable (config now) in
theorem reportable_onDay (h : Reportable r.state) : Reportable (onDay config now r).state := by
  unfold Reportable
  rw [onDay_positions]
  exact h

theorem reportable_withSequence {n : Nat} (h : Reportable r.state) : Reportable (withSequence n r).state := h

end Records

section Refusals

variable {config : PaperEngineConfig} {now : Timestamp} {marks : Marks} {r : Repository}

theorem requestedQuantity_pos (quantity : Option Decimal) : 0 < (positive quantity).getD nominalQuantity := by
  cases h : positive quantity with
  | none => norm_num [nominalQuantity]
  | some q => simpa using (Option.filter_eq_some_iff.mp h).2

theorem opened_noted {order : PaperOrder} (h : Opened now r) : Opened now (noted config now order r) := by
  obtain ⟨s, hs, hday⟩ := h
  refine ⟨{ s with ordersRejected := s.ordersRejected + 1 }, ?_, hday⟩
  change r.state.session.map _ = _
  rw [hs]
  rfl

theorem onSession_run {f : MutableSession → MutableSession} :
    (onSession f).run r = (.ok (), { r with state := { r.state with session := r.state.session.map f } }) := rfl

theorem nextSequence_run : nextSequence.run r = (.ok (r.state.sequence + 1), withSequence (r.state.sequence + 1) r) :=
  rfl

theorem recordOrder_run {order : PaperOrder} :
    (recordOrder config order).run r = (.ok (), { r with state := recorded config order r.state }) := rfl

theorem touch_run : (touch now).run r = (.ok (), { r with state := { r.state with updatedAt := now } }) := rfl

variable (config marks r) in
theorem reject_run (hopened : Opened now r) (h : Reportable r.state) (symbol : String) (request : SubmitOrderRequest)
    (id : String) (refusal : RiskRefusal) (reduceOnly : Bool) (from_ : Provenance) :
    ∃ result, (reject config symbol request id refusal now marks reduceOnly from_).run r =
      (.ok result, noted config now result.order r) ∧ result.accepted = false ∧ result.order.clientOrderId = id ∧
      result.order.idempotentReplay = false := by
  obtain ⟨session, hsession⟩ := ensureSession_opened config hopened
  rw [reject, run_bind_ok hsession, run_bind_ok onSession_run, run_bind_ok nextSequence_run]
  dsimp only
  rw [run_bind_ok (building_run ?_), run_bind_ok recordOrder_run, run_bind_ok touch_run]
  · obtain ⟨account, haccount⟩ := reporting_run (opened_noted hopened) h
    exact ⟨_, haccount, rfl, rfl, rfl⟩
  · rw [PaperOrder.validates, Bool.and_eq_true]
    exact ⟨decide_eq_true (requestedQuantity_pos _), decide_eq_true le_rfl⟩

theorem reject_unaccepted {symbol id : String} {request : SubmitOrderRequest} {refusal : RiskRefusal} {reduceOnly : Bool}
    {from_ : Provenance} {result : PaperOrderResult}
    (h : ((reject config symbol request id refusal now marks reduceOnly from_).run r).1 = .ok result) :
    result.accepted = false := by
  rw [reject] at h
  obtain ⟨_, _, _, h⟩ := of_run_bind h
  obtain ⟨_, _, _, h⟩ := of_run_bind h
  obtain ⟨_, _, _, h⟩ := of_run_bind h
  obtain ⟨_, _, _, h⟩ := of_run_bind h
  obtain ⟨_, _, _, h⟩ := of_run_bind h
  obtain ⟨_, _, _, h⟩ := of_run_bind h
  obtain ⟨_, _, _, h⟩ := of_run_bind h
  cases h
  rfl

end Refusals

section Entries

variable {config : PaperEngineConfig} {now : Timestamp} {marks : Marks} {r : Repository}

/-- What an entry must be for the position it opens to be reported. -/
structure Bookable (config : PaperEngineConfig) (entry : Entry) : Prop where
  quantity : 0 < entry.quantity
  price : 0 < entry.price
  notional : 0 < entry.notional
  margin : 0 < entry.margin
  leverage : 1 ≤ entry.approvedLeverage
  fee : 0 ≤ entryFee config entry

theorem Bookable.reports {entry : Entry} (h : Bookable config entry) (request : SubmitOrderRequest)
    (symbol orderId positionId : String) :
    Reports (openedPosition config request symbol entry now orderId positionId).toEntryTerms :=
  ⟨h.quantity, h.price, h.notional, h.margin, h.leverage, h.fee⟩

theorem modify_run {f : Repository → Repository} : (modify f : PaperM Unit).run r = (.ok (), f r) := rfl

theorem opened_filled {order : PaperOrder} {position : MutablePosition} (h : Opened now r) :
    Opened now (filled config now order position r) := by
  obtain ⟨s, hs, hday⟩ := h
  let charged := chargeSession (-position.entryFee) position.entryFee s
  refine ⟨{ charged with ordersSubmitted := s.ordersSubmitted + 1 }, ?_, hday⟩
  change (r.state.session.map _).map _ = _
  rw [hs]
  rfl

theorem reportable_filled {order : PaperOrder} {position : MutablePosition} (h : Reportable r.state)
    (hfree : position.symbol ∉ r.state.positions.keys) (hposition : Reports position.toEntryTerms) :
    Reportable (filled config now order position r).state := by
  intro p hp
  rcases Dict.mem_values_set (d := r.state.positions) hfree hp with rfl | hp
  · exact hposition
  · exact h p hp

variable (config marks r) in
theorem openPosition_run (hopened : Opened now r) (h : Reportable r.state) (request : SubmitOrderRequest)
    {symbol : String} (id : String) {entry : Entry} (leverage : LeverageDecision) (age : Option Decimal)
    (detail : Option String) (from_ : Provenance) (hfree : symbol ∉ r.state.positions.keys)
    (hbookable : Bookable config entry) :
    ∃ result orderId positionId,
      (openPosition config request symbol id entry now leverage age marks detail from_).run r =
        (.ok result, filled config now result.order
          (openedPosition config request symbol entry now orderId positionId) r) ∧
      result.accepted = true ∧ result.order.clientOrderId = id ∧ result.order.idempotentReplay = false := by
  obtain ⟨session, hsession⟩ := ensureSession_opened config hopened
  rw [openPosition, run_bind_ok hsession, run_bind_ok nextSequence_run, run_bind_ok nextSequence_run]
  dsimp only
  rw [run_bind_ok modify_run, run_bind_ok nextSequence_run, run_bind_ok (building_run ?_),
    run_bind_ok (building_run ?_), run_bind_ok recordOrder_run, run_bind_ok touch_run,
    run_bind_ok (reportPosition_run (hbookable.reports ..))]
  · obtain ⟨account, haccount⟩ := reporting_run (opened_filled hopened) (reportable_filled h hfree (hbookable.reports ..))
    exact ⟨_, _, _, haccount, rfl, rfl, rfl⟩
  · simp only [PaperOrder.validates, Bool.and_eq_true, decide_eq_true_eq]
    exact ⟨hbookable.quantity, hbookable.quantity.le⟩
  · simp only [PaperFill.validates, Bool.and_eq_true, decide_eq_true_eq]
    exact ⟨⟨hbookable.price, hbookable.quantity⟩, hbookable.fee⟩

end Entries

section Exits

variable {config : PaperEngineConfig} {now : Timestamp} {marks : Marks} {r : Repository}

theorem fillPrice_usable {mark : MarkPrice} (h : mark.isUsable = true) (sideIsBuy : Bool) (slippageBps : Decimal) :
    ∃ fill, fillPrice mark sideIsBuy slippageBps = .ok fill := by
  rw [MarkPrice.isUsable, Bool.and_eq_true] at h
  obtain ⟨last, hlast⟩ := Option.isSome_iff_exists.mp h.2
  unfold fillPrice
  dsimp only
  split
  · exact ⟨_, rfl⟩
  · rw [hlast]
    exact ⟨_, rfl⟩

theorem onDay_of_opened (h : Opened now r) : onDay config now r = r := by
  obtain ⟨s, hrun⟩ := ensureSession_opened config h
  rw [onDay, hrun]

variable (config now r) in
/-- A position whose price is usable is closed, on the day of the call. -/
theorem close_booked (position : MutablePosition) {mark : MarkPrice} (hmark : mark.isUsable = true)
    (reason : PaperExitReason) :
    let opened := onDay config now r
    let next := opened.state.sequence + 1
    ∃ exit, (close config now position mark reason).run r =
      (.ok (tradeOf now position exit reason s!"paper-trade-{next}"
          (charge (exit.gross - exit.fee) exit.fee (withSequence next opened).state).balance),
        bookExit config now position exit reason s!"paper-trade-{next}" (withSequence next opened)) := by
  obtain ⟨⟨price, source⟩, hfill⟩ := fillPrice_usable hmark (!position.isLong) config.slippageBps
  obtain ⟨session, hsession, _⟩ := ensureSession_ok config now r
  have hraising : (raising (fillPrice mark (!position.isLong) config.slippageBps)).run r = (.ok (price, source), r) := by
    rw [hfill]
    rfl
  rw [close, run_bind_ok hraising]
  dsimp only
  rw [run_bind_ok hsession, run_bind_ok nextSequence_run]
  exact ⟨_, rfl⟩

variable (config r) in
theorem close_run (hopened : Opened now r) (position : MutablePosition) {mark : MarkPrice}
    (hmark : mark.isUsable = true) (reason : PaperExitReason) :
    ∃ exit trade, (close config now position mark reason).run r =
      (.ok trade, bookExit config now position exit reason s!"paper-trade-{r.state.sequence + 1}"
        (withSequence (r.state.sequence + 1) r)) ∧ trade.quantity = position.quantity := by
  obtain ⟨exit, hrun⟩ := close_booked config now r position hmark reason
  rw [onDay_of_opened hopened] at hrun
  exact ⟨exit, _, hrun, rfl⟩

theorem usablePrice_usable {symbol : String} {found : Option MarkPrice} {mark : MarkPrice} {price : Decimal}
    (h : usablePrice config symbol found = some (mark, price)) :
    found = some mark ∧ mark.isUsable = true ∧ mark.lastPrice = some price := by
  obtain ⟨mark', hfound, h⟩ := Option.bind_eq_some_iff.mp h
  split at h
  next husable =>
    obtain ⟨_, hlast, hpair⟩ := Option.map_eq_some_iff.mp h
    cases hpair
    exact ⟨hfound, ((Bool.and_eq_true _ _).mp husable).1, hlast⟩
  · cases h

theorem applyDailyLock_date (s : MutableSession) : (applyDailyLock now s).sessionDate = s.sessionDate := by
  unfold applyDailyLock
  dsimp only
  split_ifs <;> rfl

theorem opened_left {order : PaperOrder} {position : MutablePosition} {exit : Exit} {reason : PaperExitReason}
    (h : Opened now r) : Opened now (left config now order position exit reason r) := by
  obtain ⟨s, hs, hday⟩ := h
  let charged := chargeSession (exit.gross - exit.fee) exit.fee s
  refine ⟨applyDailyLock now { charged with tradesClosed := s.tradesClosed + 1 }, ?_, (applyDailyLock_date _).trans hday⟩
  change (r.state.session.map _).map _ = _
  rw [hs]
  rfl

theorem reportable_left {order : PaperOrder} {position : MutablePosition} {exit : Exit} {reason : PaperExitReason}
    (h : Reportable r.state) : Reportable (left config now order position exit reason r).state :=
  fun p hp => h p (Dict.mem_values_erase (d := r.state.positions) hp)

end Exits

section Calls

variable [Runtime] {config : PaperEngineConfig} {now : Timestamp} {marks : Marks} {r : Repository}

omit [Runtime] in
theorem clientOrderIdOf_run (request : SubmitOrderRequest) :
    (clientOrderIdOf request).run r =
      (.ok (submittedId request r.state.sequence), withSequence (issued request r.state.sequence) r) := by
  unfold clientOrderIdOf submittedId issued
  cases request.clientOrderId with
  | none => rfl
  | some id =>
      dsimp only
      split
      · rfl
      · rfl

variable (config now marks) in
theorem refuse_run (h : Reportable r.state) (request : SubmitOrderRequest) (code : RiskRejectionCode) (detail : String)
    (from_ : Provenance) :
    ∃ result, (PaperEngine.refuse config request now code detail marks from_).run r =
        (.ok result, noted config now result.order (identified config now request r)) ∧ result.accepted = false ∧
      result.order.clientOrderId = submittedId request (onDay config now r).state.sequence ∧
      result.order.idempotentReplay = false := by
  obtain ⟨session, hsession, hopened⟩ := ensureSession_ok config now r
  rw [PaperEngine.refuse, run_bind_ok hsession, run_bind_ok (clientOrderIdOf_run request)]
  exact reject_run _ _ (identified config now request r) hopened (reportable_onDay _ _ h) ..

theorem refuse_unaccepted {request : SubmitOrderRequest} {code : RiskRejectionCode} {detail : String} {from_ : Provenance}
    {result : PaperOrderResult}
    (h : ((PaperEngine.refuse config request now code detail marks from_).run r).1 = .ok result) :
    result.accepted = false := by
  rw [PaperEngine.refuse] at h
  obtain ⟨_, _, _, h⟩ := of_run_bind h
  obtain ⟨_, _, _, h⟩ := of_run_bind h
  exact reject_unaccepted h

section Submissions

variable {request : SubmitOrderRequest} {mark : MarkPrice} {filters : Option SymbolFilters}
  {leverage : LeverageDecision} {paperEnabled : Bool} {detail : Option String} {checks : List String}
  {riskMax : Option Decimal}

/-- What is decided about a submission that is no replay. -/
def decisionOn (config : PaperEngineConfig) (r : Repository) (request : SubmitOrderRequest) (now : Timestamp)
    (mark : MarkPrice) (filters : Option SymbolFilters) (leverage : LeverageDecision) (paperEnabled : Bool) :
    Except Decline Entry :=
  considerOrder config (onDay config now r).state request (Runtime.upper request.symbol) mark filters leverage
    paperEnabled

/-- The order a submission repeats, if its id is known. -/
def repeated (r : Repository) (request : SubmitOrderRequest) : Option PaperOrder :=
  r.state.ordersByClientId.get? (submittedId request r.state.sequence)

omit [Runtime] in
theorem load_run : load.run r = (.ok r.state, r) := rfl

omit [Runtime] in
theorem repeated_identified : (withSequence (issued request (onDay config now r).state.sequence)
    (onDay config now r)).state.ordersByClientId.get? (submittedId request (onDay config now r).state.sequence) =
      repeated r request := by
  change (onDay config now r).state.ordersByClientId.get? _ = _
  rw [onDay_state]
  rfl

variable (config now marks mark filters leverage paperEnabled detail checks riskMax) in
theorem submitOrder_replayed (h : Reportable r.state) {existing : PaperOrder} (hknown : repeated r request = some existing) :
    ∃ result, (PaperEngine.submitOrder config request now mark filters leverage paperEnabled marks detail checks
        riskMax).run r = (.ok result, identified config now request r) ∧ result.accepted = existing.isFilled ∧
      result.order = { existing with idempotentReplay := true } := by
  obtain ⟨session, hsession, hopened⟩ := ensureSession_ok config now r
  have hreport : Reportable (identified config now request r).state :=
    reportable_withSequence (reportable_onDay _ _ h)
  rw [PaperEngine.submitOrder, run_bind_ok hsession]
  dsimp only
  rw [run_bind_ok (clientOrderIdOf_run request), run_bind_ok load_run, repeated_identified, hknown]
  dsimp only
  rw [replayed, run_bind_ok load_run]
  have hheld : ∀ p ∈ (identified config now request r).state.positions.get? (Runtime.upper request.symbol),
      Reports p.toEntryTerms :=
    fun p hp => hreport p (Dict.mem_values.mpr ⟨_, hp⟩)
  obtain ⟨model, hmodel⟩ := reportHeld_run config now (marks.setDefault (Runtime.upper request.symbol) mark)
    (identified config now request r) hheld
  obtain ⟨account, haccount⟩ := reporting_run (r := identified config now request r) hopened hreport
  exact ⟨_, (run_bind_ok hmodel).trans haccount, rfl, rfl⟩

variable (config now marks request mark filters leverage paperEnabled detail checks riskMax) in
theorem submitOrder_decided (hnew : repeated r request = none) :
    (PaperEngine.submitOrder config request now mark filters leverage paperEnabled marks detail checks riskMax).run r =
      (conclude config request (Runtime.upper request.symbol) (submittedId request (onDay config now r).state.sequence)
        now leverage mark.ageSeconds (marks.setDefault (Runtime.upper request.symbol) mark) detail
        ⟨some leverage, checks, riskMax⟩ (decisionOn config r request now mark filters leverage paperEnabled)).run
        (identified config now request r) := by
  obtain ⟨session, hsession, _⟩ := ensureSession_ok config now r
  rw [PaperEngine.submitOrder, run_bind_ok hsession]
  dsimp only
  rw [run_bind_ok (clientOrderIdOf_run request), run_bind_ok load_run, repeated_identified, hnew]
  rfl

/-- What a submission comes to, where the entry it makes can be reported: a
repetition, an exception before anything is booked, a refusal, or a position. -/
inductive Submitted (config : PaperEngineConfig) (now : Timestamp) (request : SubmitOrderRequest) (r : Repository)
    (decision : Except Decline Entry) (outcome : Except PaperError PaperOrderResult × Repository) : Prop
  | replayed (existing : PaperOrder) (result : PaperOrderResult) (hknown : repeated r request = some existing)
      (hrun : outcome = (.ok result, identified config now request r)) (haccepted : result.accepted = existing.isFilled)
      (horder : result.order = { existing with idempotentReplay := true })
  | raised (e : PaperError) (hnew : repeated r request = none) (hdecision : decision = .error (.raised e))
      (hrun : outcome = (.error e, identified config now request r))
  | refused (result : PaperOrderResult) (hnew : repeated r request = none)
      (hid : result.order.clientOrderId = submittedId request r.state.sequence)
      (hfirst : result.order.idempotentReplay = false)
      (hrun : outcome = (.ok result, noted config now result.order (identified config now request r)))
      (haccepted : result.accepted = false)
  | opened (result : PaperOrderResult) (entry : Entry) (orderId positionId : String)
      (hnew : repeated r request = none) (hdecision : decision = .ok entry)
      (hid : result.order.clientOrderId = submittedId request r.state.sequence)
      (hfirst : result.order.idempotentReplay = false)
      (hrun : outcome = (.ok result, filled config now result.order (openedPosition config request
        (Runtime.upper request.symbol) entry now orderId positionId) (identified config now request r)))
      (haccepted : result.accepted = true)
      (hfree : Runtime.upper request.symbol ∉ r.state.positions.keys) (hbookable : Bookable config entry)

variable (config now marks mark filters leverage paperEnabled detail checks riskMax) in
theorem submitOrder_submitted (h : Reportable r.state)
    (hbookable : ∀ entry, repeated r request = none →
      decisionOn config r request now mark filters leverage paperEnabled = .ok entry → Bookable config entry) :
    Submitted config now request r (decisionOn config r request now mark filters leverage paperEnabled)
      ((PaperEngine.submitOrder config request now mark filters leverage paperEnabled marks detail checks
        riskMax).run r) := by
  obtain ⟨_, _, hopened⟩ := ensureSession_ok config now r
  have hreport : Reportable (identified config now request r).state := reportable_withSequence (reportable_onDay _ _ h)
  cases hknown : repeated r request with
  | some existing =>
      obtain ⟨result, hrun, haccepted, horder⟩ := submitOrder_replayed config now marks mark filters leverage
        paperEnabled detail checks riskMax h hknown
      exact .replayed existing result hknown hrun haccepted horder
  | none =>
      rw [submitOrder_decided _ _ _ _ _ _ _ _ _ _ _ hknown, onDay_sequence]
      match hdecision : decisionOn config r request now mark filters leverage paperEnabled with
      | .error (.refused refusal) | .error (.ruled refusal) =>
          obtain ⟨result, hrun, haccepted, hid, hfirst⟩ := reject_run config
            (marks.setDefault (Runtime.upper request.symbol) mark) (identified config now request r) hopened hreport
            (Runtime.upper request.symbol) request (submittedId request r.state.sequence) refusal false _
          exact .refused result hknown hid hfirst hrun haccepted
      | .error (.raised e) => exact .raised e hknown rfl rfl
      | .ok entry =>
          have hentry := hbookable entry hknown hdecision
          have hfree := (considerOrder_ok hdecision).admitted.free
          obtain ⟨result, orderId, positionId, hrun, haccepted, hid, hfirst⟩ := openPosition_run config
            (marks.setDefault (Runtime.upper request.symbol) mark) (identified config now request r) hopened hreport
            request (submittedId request r.state.sequence) leverage mark.ageSeconds detail
            ⟨some leverage, checks, riskMax⟩ hfree hentry
          rw [onDay_positions] at hfree
          exact .opened result entry orderId positionId hknown rfl hid hfirst hrun haccepted hfree hentry

end Submissions

/-- The account as a closing is decided on. -/
def numbered (config : PaperEngineConfig) (now : Timestamp) (r : Repository) : Repository :=
  withSequence ((onDay config now r).state.sequence + 1) (onDay config now r)

omit [Runtime] in
theorem generatedId_run (stem : String) : (generatedId stem).run r =
    (.ok s!"{stem}{r.state.sequence + 1}", withSequence (r.state.sequence + 1) r) := rfl

variable (config now marks) in
/-- A closing is refused, or it closes what is held. It does not raise. -/
theorem closePosition_run (h : Reportable r.state) (symbol : String) (mark : MarkPrice) (reason : PaperExitReason) :
    ∃ result, result.order.clientOrderId = s!"paper-close-{(onDay config now r).state.sequence + 1}" ∧
      ((PaperEngine.closePosition config symbol now mark reason marks).run r =
          (.ok result, noted config now result.order (numbered config now r)) ∧ result.accepted = false ∨
        ∃ position exit, (onDay config now r).state.positions.get? (Runtime.upper symbol) = some position ∧
          (PaperEngine.closePosition config symbol now mark reason marks).run r =
            (.ok result, left config now result.order position exit reason (numbered config now r)) ∧
          result.accepted = true) := by
  obtain ⟨session, hsession, hopened⟩ := ensureSession_ok config now r
  have hreport : Reportable (numbered config now r).state :=
    reportable_withSequence (reportable_onDay _ _ h)
  rw [PaperEngine.closePosition, run_bind_ok hsession]
  dsimp only
  rw [run_bind_ok load_run]
  cases hheld : (onDay config now r).state.positions.get? (Runtime.upper symbol) with
  | none =>
      dsimp only
      rw [run_bind_ok (generatedId_run _)]
      obtain ⟨result, hresult, haccepted, hid, _⟩ := reject_run _ _ (numbered config now r) hopened hreport
        (Runtime.upper symbol) _ _ _ _ _
      exact ⟨result, hid, .inl ⟨hresult, haccepted⟩⟩
  | some position =>
      have hquantity : 0 < position.quantity := (hreport position (Dict.mem_values.mpr ⟨_, hheld⟩)).quantity
      dsimp only
      rw [run_bind_ok (generatedId_run _)]
      split
      next refusal _ =>
        obtain ⟨result, hresult, haccepted, hid, _⟩ := reject_run _ _ (numbered config now r) hopened hreport
          (Runtime.upper symbol) _ _ refusal _ _
        exact ⟨result, hid, .inl ⟨hresult, haccepted⟩⟩
      next hproblem =>
        rw [Option.or_eq_none_iff, refusing_eq_none] at hproblem
        have hmark : mark.isUsable = true := by simpa using hproblem.2.1
        obtain ⟨exit, trade, hclose, htrade⟩ := close_run config (numbered config now r) hopened position
          hmark reason
        rw [numbered] at hclose
        rw [run_bind_ok hclose, run_bind_ok nextSequence_run, run_bind_ok (building_run ?_), run_bind_ok recordOrder_run,
          run_bind_ok touch_run]
        · have hafter : ∀ order, Opened now (left config now order position exit reason (numbered config now r)) :=
            fun _ => opened_left (r := numbered config now r) hopened
          obtain ⟨account, haccount⟩ := reporting_run (hafter _) (reportable_left hreport)
          exact ⟨_, rfl, .inr ⟨position, exit, rfl, haccount, rfl⟩⟩
        · simp only [PaperOrder.validates, Bool.and_eq_true, decide_eq_true_eq, htrade]
          exact ⟨hquantity, hquantity.le⟩

end Calls

end Aetheris.PaperOutcomes
