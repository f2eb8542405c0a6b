import Aetheris.Lib.Coroutine
import Aetheris.PaperRuns

namespace Aetheris.PaperService

open Lib Coroutine Money Clock Enums Leverage RiskEngine OrderIdentity PaperRecords PaperEngine PaperRuns

structure Ticker where
  lastPrice : Decimal
  bidPrice : Option Decimal := none
  askPrice : Option Decimal := none

/-- An answer with its provenance. There is a value exactly when the status is OK. -/
structure Observation where
  value : Option Ticker
  status : DataStatus
  source : String
  ageSeconds : Option Decimal := none
  detail : Option String := none
  value_status : value.isSome = decide (status = .ok)

/-- What a submission reads of the venue's record of a symbol. -/
structure Listing where
  filters : SymbolFilters
  maxLeverage : Option Int := none

structure VolatilityMeasurement where
  status : VolatilityStatus
  atrPercent : Option Decimal := none
  detail : Option String := none

structure ReconciliationPending where
  count : Nat
  detail : String

inductive ServiceError
  | symbolNotFound (message : String)
  | aetheris (code message : String)
  | paper (error : PaperPricing.PaperError)
  | risk (error : EvaluateError)
  | cancelled
  | other (message : String)

/-- What a call of the service waits for or touches. `volatility` is the candles
of a symbol as they are measured, whether or not they arrived. -/
inductive Effect : Type → Type 1
  | acquire : Effect Unit
  | release : Effect Unit
  | utcnow : Effect Timestamp
  | openSymbols : Effect (List String)
  | emergency : Effect (Bool × Option String)
  | lastEntryAt (symbol : String) : Effect (Option Timestamp)
  | noteEntry (symbol : String) (now : Timestamp) : Effect Unit
  | call (op : Operation) : Effect op.Answer
  | reset (now : Timestamp) (startingBalance : Option Decimal) : Effect PaperAccount
  | getTicker (symbol : String) : Effect Observation
  | getSymbol (symbol : String) : Effect Listing
  | volatility (symbol : String) (now : Timestamp) : Effect VolatilityMeasurement
  | reconciliationPending : Effect ReconciliationPending
  | save : Effect Unit

def Effect.operation? : {β : Type} → Effect β → Option Operation
  | _, .call op => some op
  | _, _ => none

abbrev ServiceM := Coroutine Effect ServiceError

structure PaperTradingService where
  exchangeName : String
  paperEnabled : Bool
  /-- Whether a durable order store is bound. -/
  orders : Bool
  /-- Whether a snapshot store is bound. -/
  snapshots : Bool
  maxOpenPositions : Int
  maxPositionNotional : Decimal
  maxPortfolioExposure : Decimal
  maxLeverage : Decimal
  maxDataAgeSeconds : Decimal
  entryCooldownSeconds : Decimal
  manualEntryCooldownSeconds : Decimal
  maxAtrPercent : Decimal

def markFromObservation (symbol : String) (observation : Observation) : MarkPrice where
  symbol := symbol
  status := observation.status
  source := observation.source
  lastPrice := observation.value.map Ticker.lastPrice
  bidPrice := observation.value.bind Ticker.bidPrice
  askPrice := observation.value.bind Ticker.askPrice
  ageSeconds := observation.ageSeconds
  detail := observation.detail

def unresolvableLeverage (detail : String) : LeverageDecision where
  outcome := .rejected
  reason := .insufficientData
  detail := detail

/-- `async with self._write_lock`. -/
def underLock {α : Type} (body : ServiceM α) : ServiceM α := do
  perform .acquire
  let outcome ← body.caught
  perform .release
  finished outcome

namespace PaperTradingService

variable (service : PaperTradingService)

def persist : ServiceM Unit := if service.snapshots then perform .save else pure ()

/-- A store that cannot be read counts as an order that awaits. -/
def reconciliationPending : ServiceM ReconciliationPending :=
  if service.orders then do
    match ← (perform .reconciliationPending).caught with
    | .ok pending => return pending
    | .error .cancelled => raise .cancelled
    | .error _ =>
        return ⟨1, "The durable order store could not be read, so whether an order is " ++
          "awaiting reconciliation is unknown. No new entry is permitted until " ++ "it can be checked."⟩
  else return ⟨0, "No durable order store is configured."⟩

def metadata (symbol : String) : ServiceM (Except String Listing) := do
  match ← (perform (.getSymbol symbol)).caught with
  | .ok listed => return .ok listed
  | .error (.symbolNotFound message) => return .error message
  | .error e => raise e

def proposedMargin (request : SubmitOrderRequest) (mark : MarkPrice) : Decimal :=
  match request.margin, request.quantity, mark.lastPrice with
  | some margin, _, _ => margin
  | none, some quantity, some price => quantizeUsdt (quantity * price)
  | none, _, _ => 0

def policy (origin : String) : RiskPolicy where
  maxOpenPositions := service.maxOpenPositions
  maxPositionNotional := service.maxPositionNotional
  maxPortfolioExposure := service.maxPortfolioExposure
  maxLeverage := service.maxLeverage
  maxDataAgeSeconds := service.maxDataAgeSeconds
  entryCooldownSeconds :=
    if origin = "autonomous-loop" then service.entryCooldownSeconds else service.manualEntryCooldownSeconds
  maxAtrPercent := service.maxAtrPercent

def accountView (account : PaperAccount) (symbol : String) (pending : ReconciliationPending) :
    ServiceM RiskAccountView := do
  let (stopped, reason) ← perform .emergency
  let last ← perform (.lastEntryAt symbol)
  return { availableBalance := account.availableBalance
           openSymbols := account.positions.map fun p => p.symbol
           openPositionCount := account.positions.length
           totalNotional := (account.positions.map fun p => p.notional).sum
           sessionRealizedPnl := account.session.realizedPnl
           dailyProfitTarget := account.session.profitTarget
           dailyLossLimit := account.session.lossLimit
           lockState := account.session.lockState
           lockReason := account.session.lockReason
           emergencyStopped := stopped
           emergencyReason := reason
           modeEnabled := service.paperEnabled
           unreconciledOrders := pending.count
           unreconciledDetail := some pending.detail
           lastEntryAt := last }

def proposal (request : SubmitOrderRequest) (symbol : String) (mark : MarkPrice) (requestedLeverage : Decimal) :
    RiskProposal where
  symbol := symbol
  side := request.side
  requestedMargin := proposedMargin request mark
  requestedLeverage := requestedLeverage
  stopLossPercent := request.stopLossPercent

def marketView (mark : MarkPrice) (volatility : VolatilityMeasurement) (listed : Listing) : RiskMarketView where
  status := mark.status
  ageSeconds := mark.ageSeconds
  lastPrice := mark.lastPrice
  atrPercent := volatility.atrPercent
  volatilityStatus := volatility.status
  volatilityDetail := volatility.detail
  filters := some listed.filters
  exchangeMaxLeverage := listed.maxLeverage.map fun leverage => (leverage : Decimal)

/-- Exactly what was approved is submitted, not what was asked for. -/
def submitApproved (request : SubmitOrderRequest) (symbol : String) (now : Timestamp) (mark : MarkPrice)
    (listed : Listing) (marks : Marks) (verdict : RiskVerdict) : ServiceM PaperOrderResult := do
  let outcome ← perform (.call (.submitOrder { request with margin := verdict.approvedMargin, quantity := none } now
    mark (some listed.filters) verdict.leverage service.paperEnabled marks (some verdict.detail)
    verdict.checksPerformed verdict.riskMaxLeverage))
  if outcome.accepted then
    perform (.noteEntry symbol now)
    return outcome
  else return outcome

def submitRuled (request : SubmitOrderRequest) (symbol : String) (now : Timestamp) (mark : MarkPrice)
    (listed : Listing) (marks : Marks) (verdict : RiskVerdict) : ServiceM PaperOrderResult :=
  if verdict.approved then submitApproved service request symbol now mark listed marks verdict
  else match verdict.code with
    | some code =>
        perform (.call (.refuse request now code verdict.detail marks
          ⟨some verdict.leverage, verdict.checksPerformed, verdict.riskMaxLeverage⟩))
    | none => raise (.other "a refusing verdict must carry a rejection code")

variable [Runtime]

def mark (symbol : String) : ServiceM MarkPrice := do
  match ← (perform (.getTicker symbol)).caught with
  | .ok observation => return markFromObservation (Runtime.upper symbol) observation
  | .error (.aetheris code message) =>
      let exchange := service.exchangeName
      return { symbol := Runtime.upper symbol, status := .error, source := s!"{exchange}:rest",
               detail := some s!"{code}: {message}" }
  | .error e => raise e

def marksOf : List String → Marks → ServiceM Marks
  | [], marks => return marks
  | symbol :: rest, marks => do
      let mark ← service.mark symbol
      marksOf rest (marks.set symbol mark)

def openMarks : ServiceM Marks := do
  service.marksOf (← perform .openSymbols) .empty

def markIn (marks : Marks) (symbol : String) : ServiceM MarkPrice :=
  match marks.get? symbol with
  | some mark => return mark
  | none => service.mark symbol

/-- The clock is read before the marks are waited for. -/
def getAccount : ServiceM PaperAccount := do
  let now ← perform .utcnow
  let marks ← service.openMarks
  perform (.call (.snapshot now marks))

/-- Up to the position that is evaluated. What follows reads, and touches neither
engine nor lock. -/
def positionIntelligence (symbol : String) : ServiceM (Option PaperPosition) := do
  let account ← service.getAccount
  return account.positions.find? fun p => p.symbol = Runtime.upper symbol

def tick : ServiceM (PaperAccount × List PaperTrade) := underLock do
  let now ← perform .utcnow
  let marks ← service.openMarks
  let outcome ← perform (.call (.tick now marks))
  service.persist
  return outcome

def submitListed (request : SubmitOrderRequest) (requestedLeverage : Decimal) (origin symbol : String)
    (now : Timestamp) (marks : Marks) (listed : Listing) : ServiceM PaperOrderResult := do
  let mark ← service.markIn marks symbol
  let volatility ← perform (.volatility symbol now)
  let account ← perform (.call (.snapshot now marks))
  let pending ← service.reconciliationPending
  let view ← service.accountView account symbol pending
  match evaluate (proposal request symbol mark requestedLeverage) view (marketView mark volatility listed)
      (service.policy origin) now with
  | .error e => raise (.risk e)
  | .ok verdict => service.submitRuled request symbol now mark listed marks verdict

def submitUnlisted (request : SubmitOrderRequest) (symbol : String) (now : Timestamp) (marks : Marks)
    (problem : String) : ServiceM PaperOrderResult :=
  let exchange := service.exchangeName
  perform (.call (.submitOrder request now
    { symbol := symbol, status := .unavailable, source := s!"{exchange}:rest",
      detail := some (s!"{problem}. A paper order needs the venue's published filters " ++
        "for the symbol, so an unlisted instrument cannot be simulated.") }
    none (unresolvableLeverage "The symbol is not listed, so no venue ceiling exists to rule against.")
    service.paperEnabled marks none [] none))

/-- The body of `submitOrder`, run under the write lock. -/
def submitLocked (request : SubmitOrderRequest) (requestedLeverage : Decimal) (origin : String) :
    ServiceM PaperOrderResult := do
  let symbol := Runtime.upper request.symbol
  let now ← perform .utcnow
  let marks ← service.openMarks
  match ← replayKnown request now marks with
  | some replayed => return replayed
  | none =>
      match ← metadata symbol with
      | .error problem => service.submitUnlisted request symbol now marks problem
      | .ok listed => service.submitListed request requestedLeverage origin symbol now marks listed
where
  replayKnown (request : SubmitOrderRequest) (now : Timestamp) (marks : Marks) :
      ServiceM (Option PaperOrderResult) :=
    match request.clientOrderId with
    | none => return none
    | some id => perform (.call (.replay id now marks))

def submitOrder (request : SubmitOrderRequest) (requestedLeverage : Decimal) (origin : String) :
    ServiceM PaperOrderResult := underLock do
  let result ← service.submitLocked request requestedLeverage origin
  service.persist
  return result

/-- Here the clock is read after the marks have arrived. -/
def closePosition (symbol : String) (reason : PaperExitReason) : ServiceM PaperOrderResult := underLock do
  let marks ← service.openMarks
  let key := Runtime.upper symbol
  let mark ← service.markIn marks key
  let now ← perform .utcnow
  let result ← perform (.call (.closePosition key now mark reason marks))
  service.persist
  return result

omit [Runtime]

def reset (startingBalance : Option Decimal) : ServiceM PaperAccount := underLock do
  let now ← perform .utcnow
  let account ← perform (.reset now startingBalance)
  service.persist
  return account

def setEmergencyStop (engaged : Bool) (reason : String) : ServiceM PaperAccount := underLock do
  let now ← perform .utcnow
  let account ← perform (.call (.setEmergencyStop engaged reason now))
  service.persist
  return account

end PaperTradingService

section Issues

open PaperTradingService

variable [Runtime]

/-- The engine calls of the service. An order it submits is one that an approved
verdict ruled on, or one for a symbol that is not listed. -/
inductive Issued (service : PaperTradingService) : Operation → Prop
  | approved {request : SubmitOrderRequest} {symbol origin : String} {now : Timestamp} {mark : MarkPrice}
      {requestedLeverage : Decimal} {view : RiskAccountView} {volatility : VolatilityMeasurement} {listed : Listing}
      {marks : Marks} {verdict : RiskVerdict}
      (hverdict : evaluate (proposal request symbol mark requestedLeverage) view (marketView mark volatility listed)
        (service.policy origin) now = .ok verdict)
      (happroved : verdict.approved = true) :
      Issued service (.submitOrder { request with margin := verdict.approvedMargin, quantity := none } now mark
        (some listed.filters) verdict.leverage service.paperEnabled marks (some verdict.detail)
        verdict.checksPerformed verdict.riskMaxLeverage)
  | unlisted {request : SubmitOrderRequest} {now : Timestamp} {mark : MarkPrice} {detail : String} {marks : Marks} :
      Issued service (.submitOrder request now mark none (unresolvableLeverage detail) service.paperEnabled marks none
        [] none)
  | refuse {request : SubmitOrderRequest} {now : Timestamp} {code : RiskRejectionCode} {detail : String}
      {marks : Marks} {from_ : Provenance} : Issued service (.refuse request now code detail marks from_)
  | replay {id : String} {now : Timestamp} {marks : Marks} : Issued service (.replay id now marks)
  | closePosition {symbol : String} {now : Timestamp} {mark : MarkPrice} {reason : PaperExitReason} {marks : Marks} :
      Issued service (.closePosition symbol now mark reason marks)
  | tick {now : Timestamp} {marks : Marks} : Issued service (.tick now marks)
  | setEmergencyStop {engaged : Bool} {reason : String} {now : Timestamp} :
      Issued service (.setEmergencyStop engaged reason now)
  | snapshot {now : Timestamp} {marks : Marks} : Issued service (.snapshot now marks)

def IssuedBy (service : PaperTradingService) : {β : Type} → Effect β → Prop
  | _, .call op => Issued service op
  | _, _ => True

variable {service : PaperTradingService} {α : Type}

theorem issued_of_operation {f : Effect α} {op : Operation} (h : IssuedBy service f) (hop : f.operation? = some op) :
    Issued service op := by
  cases f with
  | call op' =>
      obtain rfl := Option.some.inj hop
      exact h
  | _ => cases hop

abbrev Issues (service : PaperTradingService) (c : ServiceM α) : Prop := c.Performs (IssuedBy service)

theorem issues_underLock {body : ServiceM α} (h : Issues service body) : Issues service (underLock body) :=
  performs_then trivial fun _ =>
    performs_bind (performs_caught h) fun outcome =>
      performs_then trivial fun _ => performs_finished outcome

section Idle

/-- Whatever is no engine call passes. -/
def Idle (Q : {β : Type} → Effect β → Prop) : Prop := ∀ {β : Type} (f : Effect β), f.operation? = none → Q f

theorem issued_idle : Idle (IssuedBy service) := by
  intro β f hf
  cases f with
  | call op => cases hf
  | _ => trivial

/-- The await neither calls the engine nor touches the lock. -/
def Effect.Calm : {β : Type} → Effect β → Prop
  | _, .call _ | _, .acquire | _, .release | _, .reset _ _ => False
  | _, _ => True

def Calm (Q : {β : Type} → Effect β → Prop) : Prop := ∀ {β : Type} (f : Effect β), f.Calm → Q f

omit [Runtime] in
theorem Idle.calm {Q : {β : Type} → Effect β → Prop} (h : Idle Q) : Calm Q := by
  intro β f hf
  apply h
  cases f with
  | call => exact hf.elim
  | _ => rfl

variable {Q : {β : Type} → Effect β → Prop} (hcalm : Calm Q)

include hcalm

omit [Runtime] in
theorem performs_persist : service.persist.Performs Q := by
  unfold persist
  split
  · exact performs_perform (hcalm _ trivial)
  · exact trivial

omit [Runtime] in
theorem performs_reconciliationPending : service.reconciliationPending.Performs Q := by
  unfold PaperTradingService.reconciliationPending
  split
  · refine performs_bind (performs_caught (performs_perform (hcalm _ trivial))) fun answer => ?_
    cases answer with
    | ok pending => exact trivial
    | error e => cases e <;> exact trivial
  · exact trivial

omit [Runtime] in
theorem performs_metadata (symbol : String) : (metadata symbol).Performs Q := by
  refine performs_bind (performs_caught (performs_perform (hcalm _ trivial))) fun answer => ?_
  cases answer with
  | ok listed => exact trivial
  | error e => cases e <;> exact trivial

theorem performs_mark (symbol : String) : (service.mark symbol).Performs Q := by
  refine performs_bind (performs_caught (performs_perform (hcalm _ trivial))) fun answer => ?_
  cases answer with
  | ok observation => exact trivial
  | error e => cases e <;> exact trivial

theorem performs_marksOf (symbols : List String) (marks : Marks) : (service.marksOf symbols marks).Performs Q := by
  induction symbols generalizing marks with
  | nil => exact trivial
  | cons symbol rest ih => exact performs_bind (performs_mark hcalm symbol) fun mark => ih _

theorem performs_openMarks : service.openMarks.Performs Q :=
  performs_then (hcalm _ trivial) fun symbols => performs_marksOf hcalm symbols _

theorem performs_markIn (marks : Marks) (symbol : String) : (service.markIn marks symbol).Performs Q := by
  unfold markIn
  split
  · exact trivial
  · exact performs_mark hcalm symbol

omit [Runtime] in
theorem performs_accountView (account : PaperAccount) (symbol : String) (pending : ReconciliationPending) :
    (service.accountView account symbol pending).Performs Q :=
  performs_then (hcalm _ trivial) fun _ => performs_then (hcalm _ trivial) fun _ => trivial

end Idle

/-- What the service makes of an approval. -/
def approvedCall (service : PaperTradingService) (request : SubmitOrderRequest) (now : Timestamp) (mark : MarkPrice)
    (listed : Listing) (marks : Marks) (verdict : RiskVerdict) : Operation :=
  .submitOrder { request with margin := verdict.approvedMargin, quantity := none } now mark (some listed.filters)
    verdict.leverage service.paperEnabled marks (some verdict.detail) verdict.checksPerformed verdict.riskMaxLeverage

/-- The engine calls of one submission: it repeats an order, it looks at the
account, it is refused, or it submits what was approved of it or what is not listed. -/
inductive Submits (service : PaperTradingService) (request : SubmitOrderRequest) (requestedLeverage : Decimal)
    (origin : String) : Operation → Prop
  | approved {now : Timestamp} {mark : MarkPrice} {view : RiskAccountView} {volatility : VolatilityMeasurement}
      {listed : Listing} {marks : Marks} {verdict : RiskVerdict}
      (hverdict : evaluate (proposal request (Runtime.upper request.symbol) mark requestedLeverage) view
        (marketView mark volatility listed) (service.policy origin) now = .ok verdict)
      (happroved : verdict.approved = true) :
      Submits service request requestedLeverage origin (approvedCall service request now mark listed marks verdict)
  | unlisted {now : Timestamp} {mark : MarkPrice} {detail : String} {marks : Marks} :
      Submits service request requestedLeverage origin (.submitOrder request now mark none
        (unresolvableLeverage detail) service.paperEnabled marks none [] none)
  | refuse {now : Timestamp} {code : RiskRejectionCode} {detail : String} {marks : Marks} {from_ : Provenance} :
      Submits service request requestedLeverage origin (.refuse request now code detail marks from_)
  | replay {id : String} {now : Timestamp} {marks : Marks} (hid : request.clientOrderId = some id) :
      Submits service request requestedLeverage origin (.replay id now marks)
  | snapshot {now : Timestamp} {marks : Marks} :
      Submits service request requestedLeverage origin (.snapshot now marks)

section Submissions

variable {request : SubmitOrderRequest} {requestedLeverage : Decimal} {origin : String}

theorem issued_of_submits {op : Operation} (h : Submits service request requestedLeverage origin op) :
    Issued service op := by
  cases h with
  | approved hverdict happroved => exact .approved hverdict happroved
  | unlisted => exact .unlisted
  | refuse => exact .refuse
  | replay _ => exact .replay
  | snapshot => exact .snapshot

abbrev SubmittedBy (service : PaperTradingService) (request : SubmitOrderRequest) (requestedLeverage : Decimal)
    (origin : String) {β : Type} (f : Effect β) : Prop :=
  ∀ op, f.operation? = some op → Submits service request requestedLeverage origin op

theorem submitted_idle : Idle (SubmittedBy service request requestedLeverage origin) :=
  fun _ hf _ hop => nomatch hf.symm.trans hop

theorem submitted_call {op : Operation} (h : Submits service request requestedLeverage origin op) :
    SubmittedBy service request requestedLeverage origin (Effect.call op) := by
  rintro _ ⟨⟩
  exact h

theorem performs_submitRuled {now : Timestamp} {mark : MarkPrice} {volatility : VolatilityMeasurement}
    {listed : Listing} {view : RiskAccountView} {verdict : RiskVerdict} (marks : Marks)
    (hverdict : evaluate (proposal request (Runtime.upper request.symbol) mark requestedLeverage) view
      (marketView mark volatility listed) (service.policy origin) now = .ok verdict) :
    (service.submitRuled request (Runtime.upper request.symbol) now mark listed marks verdict).Performs
      (SubmittedBy service request requestedLeverage origin) := by
  unfold submitRuled
  split
  next happroved =>
    refine performs_then (submitted_call (.approved hverdict happroved)) fun outcome => ?_
    split
    · exact performs_then (submitted_idle _ rfl) fun _ => trivial
    · exact trivial
  · split
    · exact performs_perform (submitted_call .refuse)
    · exact trivial

theorem performs_submitListed (now : Timestamp) (marks : Marks) (listed : Listing) :
    (service.submitListed request requestedLeverage origin (Runtime.upper request.symbol) now marks listed).Performs
      (SubmittedBy service request requestedLeverage origin) := by
  refine performs_bind (performs_markIn submitted_idle.calm marks _) fun mark => ?_
  refine performs_then (submitted_idle _ rfl) fun volatility => ?_
  refine performs_then (submitted_call .snapshot) fun account => ?_
  refine performs_bind (performs_reconciliationPending submitted_idle.calm) fun pending => ?_
  refine performs_bind (performs_accountView submitted_idle.calm account _ pending) fun view => ?_
  cases hverdict : evaluate (proposal request (Runtime.upper request.symbol) mark requestedLeverage) view
      (marketView mark volatility listed) (service.policy origin) now with
  | error e => exact trivial
  | ok verdict => exact performs_submitRuled marks hverdict

theorem performs_submitLocked (request : SubmitOrderRequest) (requestedLeverage : Decimal) (origin : String) :
    (service.submitLocked request requestedLeverage origin).Performs
      (SubmittedBy service request requestedLeverage origin) := by
  refine performs_then (submitted_idle _ rfl) fun now => ?_
  refine performs_bind (performs_openMarks submitted_idle.calm) fun marks => ?_
  refine performs_bind ?_ fun replayed => ?_
  · unfold submitLocked.replayKnown
    split
    · exact trivial
    next id hid => exact performs_perform (submitted_call (.replay hid))
  cases replayed with
  | some original => exact trivial
  | none =>
      refine performs_bind (performs_metadata submitted_idle.calm _) fun found => ?_
      cases found with
      | error problem => exact performs_perform (submitted_call .unlisted)
      | ok listed => exact performs_submitListed now marks listed

theorem issues_submitLocked (request : SubmitOrderRequest) (requestedLeverage : Decimal) (origin : String) :
    Issues service (service.submitLocked request requestedLeverage origin) := by
  refine performs_mono (fun f hf => ?_) (performs_submitLocked request requestedLeverage origin)
  cases f with
  | call op => exact issued_of_submits (hf op rfl)
  | _ => trivial

end Submissions

theorem issues_getAccount : Issues service service.getAccount :=
  performs_then trivial fun _ =>
    performs_bind (performs_openMarks issued_idle.calm) fun _ => performs_perform Issued.snapshot

theorem issues_submitOrder (request : SubmitOrderRequest) (requestedLeverage : Decimal) (origin : String) :
    Issues service (service.submitOrder request requestedLeverage origin) :=
  issues_underLock <| performs_bind (issues_submitLocked request requestedLeverage origin) fun _ =>
    performs_bind (performs_persist issued_idle.calm) fun _ => trivial

theorem issues_tick : Issues service service.tick :=
  issues_underLock <| performs_then trivial fun _ =>
    performs_bind (performs_openMarks issued_idle.calm) fun _ =>
      performs_then Issued.tick fun _ => performs_bind (performs_persist issued_idle.calm) fun _ => trivial

theorem issues_closePosition (symbol : String) (reason : PaperExitReason) :
    Issues service (service.closePosition symbol reason) := by
  refine issues_underLock ?_
  refine performs_bind (performs_openMarks issued_idle.calm) fun marks => ?_
  refine performs_bind (performs_markIn issued_idle.calm marks _) fun mark => ?_
  refine performs_then trivial fun now => ?_
  refine performs_then Issued.closePosition fun result => ?_
  exact performs_bind (performs_persist issued_idle.calm) fun _ => trivial

theorem issues_reset (startingBalance : Option Decimal) : Issues service (service.reset startingBalance) :=
  issues_underLock <| performs_then trivial fun _ =>
    performs_then trivial fun _ => performs_bind (performs_persist issued_idle.calm) fun _ => trivial

theorem issues_setEmergencyStop (engaged : Bool) (reason : String) :
    Issues service (service.setEmergencyStop engaged reason) :=
  issues_underLock <| performs_then trivial fun _ =>
    performs_then Issued.setEmergencyStop fun _ => performs_bind (performs_persist issued_idle.calm) fun _ => trivial

end Issues

end Aetheris.PaperService
