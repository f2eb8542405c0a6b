import Aetheris.Signing
import Aetheris.TestnetRuling
import Aetheris.VenueAnswers

namespace Aetheris.TestnetRequests

open Lib Coroutine Money Clock Enums OrderRecords OrderIdentity TestnetService Signing
open VenueAnswers (Interpreter Json Payload Response field codeAndMsg parseOrderView numberOfText finite?)

inductive Method
  | get | post | delete
  deriving DecidableEq

structure HttpRequest where
  method : Method
  path : String
  query : String
  headers : List (String × String)
  deriving DecidableEq

/-- What comes of a request, and what the clock reads when an answer is read. -/
inductive HttpAnswer
  | timedOut
  | unreachable
  | response (response : Response) (observedAt : Timestamp)

/-- What the service and its adapter await between them. The clock of a signature
reads milliseconds, and already has the offset to the venue's. -/
inductive Wire (σ : Type) : Type → Type 1
  | keep {β : Type} (f : Effect σ β) : Wire σ β
  | timestamp : Wire σ Int
  | http (request : HttpRequest) : Wire σ HttpAnswer
  | sleep (seconds : Decimal) : Wire σ Unit

abbrev WireM (σ : Type) := Coroutine (Wire σ) ServiceError

structure TestnetSettings where
  apiKey : String
  apiSecret : String
  recvWindowMs : Int := 5000
  maxReadRetries : Nat := 2
  backoffSeconds : Decimal := 1 / 2
  maxBackoffSeconds : Decimal := 8

def exampleSettings : TestnetSettings where
  apiKey := "key"
  apiSecret := "secret"

/-- The errors of the adapter, by what is done about them. -/
inductive AdapterError
  | rateLimited (message : String)
  | timeout (message : String)
  | unavailable (message : String)
  | invalidResponse (message : String)
  | rejection (venueCode : Int) (message : String)
  | exchange (message : String)
  | hedgeMode (message : String)
  | other (error : ServiceError)

namespace AdapterError

def isTransient : AdapterError → Bool
  | timeout _ | unavailable _ => true
  | _ => false

def raised : AdapterError → ServiceError
  | rateLimited message | timeout message | unavailable message | invalidResponse message | rejection _ message
  | exchange message => .exchange message
  | hedgeMode message => .hedgeMode message
  | other error => error

def isExchangeError (e : AdapterError) : Bool := e.raised.isExchangeError

end AdapterError

def positionSideDual : String := "/fapi/v1/positionSide/dual"

def leveragePath : String := "/fapi/v1/leverage"

def marginTypePath : String := "/fapi/v1/marginType"

def positionRisk : String := "/fapi/v3/positionRisk"

def positionRiskV2 : String := "/fapi/v2/positionRisk"

def positionSideOneWay : String := "BOTH"

def errorOrderDoesNotExist : Int := -2013

def errorNoNeedToChangeMarginType : Int := -4046

section

variable [Interpreter]

/-- Data, or a typed failure. A code of 200 is a success of the margin endpoint. -/
def decode (path : String) (response : Response) : Except AdapterError Json :=
  let statusCode := response.statusCode
  if statusCode = 429 then .error (.rateLimited s!"{path} was rate limited")
  else if statusCode = 418 then
    .error (.rateLimited s!"{path} returned 418: this IP is temporarily banned by the venue")
  else match response.body with
    | none => .error (.invalidResponse s!"{path} returned a non-JSON body")
    | some payload =>
        match codeAndMsg payload with
        | some (code, msg) =>
            let shown := msg.str
            match code.toInt with
            | .error e => .error (.other e)
            | .ok code =>
                if code ≠ 200 then
                  .error (.rejection code s!"{path} was refused by the venue (code {code}): {shown}")
                else .ok payload
        | none =>
            if 500 ≤ statusCode then .error (.unavailable s!"{path} returned {statusCode}")
            else if 400 ≤ statusCode then .error (.exchange s!"{path} returned {statusCode}")
            else .ok payload

/-- The answer to an order is decoded as it is elsewhere. -/
theorem decode_order (response : Response) :
    (decode VenueAnswers.order response).mapError AdapterError.raised = VenueAnswers.decode response := by
  unfold decode VenueAnswers.decode
  dsimp only
  split
  · rfl
  · split
    · rfl
    · cases response.body with
      | none => rfl
      | some payload =>
          dsimp only
          cases codeAndMsg payload with
          | none =>
              dsimp only
              by_cases hclient : 400 ≤ response.statusCode
              · rw [if_pos hclient, if_pos hclient]
                split <;> rfl
              · rw [if_neg hclient, if_neg hclient, if_neg (by omega)]
                rfl
          | some p =>
              obtain ⟨code, msg⟩ := p
              dsimp only
              cases code.toInt with
              | error e => rfl
              | ok n => dsimp only; split <;> rfl

variable [Hmac] (settings : TestnetSettings) {σ : Type}

def signedRequest (method : Method) (path : String) (params : Params) (timestampMs : Int) : HttpRequest where
  method := method
  path := path
  query := buildSignedQuery params settings.apiSecret settings.recvWindowMs timestampMs
  headers := [(apiKeyHeader, settings.apiKey)]

/-- A read may be sent again. A write may not: a timeout before and after the venue
received it look the same from here. -/
def retries : Method → Nat
  | .get => settings.maxReadRetries
  | .post | .delete => 0

/-- The attempts that are left, this one being the `attempt`-th. -/
def attempts (method : Method) (path : String) (params : Params) : Nat → Nat →
    WireM σ (Except AdapterError (Json × Timestamp))
  | left, attempt => do
      let timestampMs ← perform .timestamp
      match ← perform (.http (signedRequest settings method path params timestampMs)) with
      | .timedOut =>
          match left with
          | 0 => return .error (.timeout s!"{path} timed out")
          | left + 1 => attempts method path params left (attempt + 1)
      | .unreachable =>
          match left with
          | 0 => return .error (.unavailable s!"{path} could not be reached")
          | left + 1 => attempts method path params left (attempt + 1)
      | .response response observedAt =>
          match decode path response with
          | .ok payload => return .ok (payload, observedAt)
          | .error e =>
              if e.isTransient then
                match left with
                | 0 => return .error e
                | left + 1 => do
                    perform (.sleep (min (settings.backoffSeconds * 2 ^ attempt) settings.maxBackoffSeconds))
                    attempts method path params left (attempt + 1)
              else return .error e

/-- What a single attempt comes to. -/
def single (path : String) : HttpAnswer → Except AdapterError (Json × Timestamp)
  | .timedOut => .error (.timeout s!"{path} timed out")
  | .unreachable => .error (.unavailable s!"{path} could not be reached")
  | .response response observedAt => (decode path response).map fun payload => (payload, observedAt)

theorem attempts_zero (method : Method) (path : String) (params : Params) (attempt : Nat) :
    (attempts settings method path params 0 attempt : WireM σ _) = do
      let timestampMs ← perform .timestamp
      let answer ← perform (.http (signedRequest settings method path params timestampMs))
      return single path answer := by
  unfold attempts
  congr 1
  funext timestampMs
  congr 1
  funext answer
  cases answer with
  | timedOut => rfl
  | unreachable => rfl
  | response response observedAt =>
      unfold single
      dsimp only
      cases decode path response with
      | ok payload => rfl
      | error e => cases e <;> rfl

/-- One signed request. -/
def request (method : Method) (path : String) (params : List (String × ParamValue)) :
    WireM σ (Except AdapterError (Json × Timestamp)) :=
  attempts settings method path (Dict.ofList params) (retries settings method) 0

/-- A request whose answer is read, by what reads it. -/
def requested {α : Type} (method : Method) (path : String) (params : List (String × ParamValue))
    (read : Except AdapterError (Json × Timestamp) → Except AdapterError α) : WireM σ α := do
  let answer ← request settings method path params
  finished ((read answer).mapError AdapterError.raised)

/-- `payload.get(key, "")`, as a text. -/
def textOf (payload : Payload) (key : String) : String := ((payload.lookup key).map Json.str).getD ""

/-- No case of a letter outside ASCII is one of these. -/
def isTrue : Json → Bool
  | .bool value => value
  | value => value.str.toLower = "true"

def requireOneWayMode : WireM σ Unit :=
  requested settings .get positionSideDual [] fun answer => do
    match (← answer).1 with
    | .dict payload =>
        match payload.lookup "dualSidePosition" with
        | none => .error (.invalidResponse "venue did not report a position mode")
        | some dual =>
            if isTrue dual then
              .error (.hedgeMode ("the venue account is in hedge mode. This build sends " ++
                "positionSide=BOTH and supports one-way mode only, so it refuses " ++
                "to trade rather than send orders whose side it cannot guarantee."))
            else .ok ()
    | _ => .error (.invalidResponse "venue did not report a position mode")

section Orders

/-- An order as it is read of an answer. What is raised in reading it is the order's own. -/
def viewOf (message : String) (answer : Json × Timestamp) : Except AdapterError VenueOrderView :=
  match answer.1 with
  | .dict payload => (parseOrderView payload answer.2).mapError .other
  | _ => .error (.invalidResponse message)

variable [Runtime]

def setLeverage (symbol : String) (leverage : Decimal) : WireM σ Decimal :=
  requested settings .post leveragePath
    [("symbol", .text (Runtime.upper symbol)), ("leverage", .int (truncDiv leverage 1))] fun answer => do
    match (← answer).1 with
    | .dict payload =>
        match payload.lookup "leverage" with
        | none => .error (.invalidResponse "venue did not echo the applied leverage")
        | some echoed =>
            match numberOfText echoed.str with
            | none => .error (.other (.other "[<class 'decimal.ConversionSyntax'>]"))
            | some number =>
                match finite? number with
                | some applied => .ok applied
                | none => .error (.other (.other "the applied leverage is no number"))
    | _ => .error (.invalidResponse "venue did not echo the applied leverage")

def setMarginMode (symbol : String) (mode : MarginMode) : WireM σ Unit :=
  let wanted := mode.value
  let shown := Runtime.upper symbol
  requested settings .post marginTypePath [("symbol", .text shown), ("marginType", .text wanted)] fun
    | .ok _ => .ok ()
    | .error (.rejection code _) =>
        if code = errorNoNeedToChangeMarginType then .ok ()
        else .error (.exchange (s!"the venue refused to set {shown} to {wanted} " ++
          s!"(code {code}). No position is closed to force it."))
    | .error e => .error e

/-- The margin mode of the first entry for the symbol that has one. -/
def marginModeOf (symbol : String) : List Json → Option MarginMode
  | [] => none
  | .dict entry :: rest =>
      let raw := Runtime.upper (textOf entry "marginType")
      if Runtime.upper (textOf entry "symbol") ≠ Runtime.upper symbol then marginModeOf symbol rest
      else if raw = "ISOLATED" then some .isolated
      else if raw = "CROSSED" ∨ raw = "CROSS" then some .crossed
      else marginModeOf symbol rest
  | _ :: rest => marginModeOf symbol rest

def entriesOf : Json → List Json
  | .list entries => entries
  | payload => [payload]

def marginModeFrom (symbol : String) : List String → WireM σ MarginMode
  | [] => raise (.exchange s!"neither positionRisk version reported a margin type for {symbol}; it is not assumed")
  | path :: rest => do
      match ← request settings .get path [("symbol", .text (Runtime.upper symbol))] with
      | .error e => if e.isExchangeError then marginModeFrom symbol rest else raise e.raised
      | .ok (payload, _) =>
          match marginModeOf symbol (entriesOf payload) with
          | some mode => return mode
          | none => marginModeFrom symbol rest

/-- The newer endpoint is silent where there is no position, the older is not. -/
def marginMode (symbol : String) : WireM σ MarginMode := marginModeFrom settings symbol [positionRisk, positionRiskV2]

omit [Interpreter] [Hmac] in
def limitParams (intent : OrderIntent) : Except AdapterError (List (String × ParamValue)) :=
  match intent.orderType, intent.price with
  | .limit, none => .error (.exchange "a limit order requires a price")
  | .limit, some price => .ok [("price", .text (str price)), ("timeInForce", .text "GTC")]
  | _, _ => .ok []

def orderParams (record : OrderRecord) : Except AdapterError (List (String × ParamValue)) := do
  let limit ← limitParams record.intent
  return [("symbol", .text (Runtime.upper record.intent.symbol)), ("side", .text record.intent.side.value),
      ("type", .text record.intent.orderType.value), ("quantity", .text (str record.intent.quantity)),
      ("positionSide", .text positionSideOneWay), ("newClientOrderId", .text record.clientOrderId)] ++ limit ++
    if record.intent.reduceOnly then [("reduceOnly", .text "true")] else []

/-- The identity that is sent is the record's own. -/
def submit (record : OrderRecord) : WireM σ VenueOrderView :=
  match orderParams record with
  | .error e => raise e.raised
  | .ok params =>
      requested settings .post VenueAnswers.order params fun answer => do
        viewOf "order response was not an object" (← answer)

def orderKey (symbol clientOrderId : String) : List (String × ParamValue) :=
  [("symbol", .text (Runtime.upper symbol)), ("origClientOrderId", .text clientOrderId)]

/-- Nothing means that the venue has no such order. -/
def query (symbol clientOrderId : String) : WireM σ (Option VenueOrderView) :=
  requested settings .get VenueAnswers.order (orderKey symbol clientOrderId) fun
    | .error (.rejection code message) =>
        if code = errorOrderDoesNotExist then .ok none else .error (.rejection code message)
    | .error e => .error e
    | .ok answer => (viewOf "order query response was not an object" answer).map some

def cancel (symbol clientOrderId : String) : WireM σ VenueOrderView :=
  requested settings .delete VenueAnswers.order (orderKey symbol clientOrderId) fun answer => do
    viewOf "cancel response was not an object" (← answer)

/-- What the service asks of its adapter, request by request. -/
def overTheWire : {β : Type} → Effect σ β → WireM σ β
  | _, .requireOneWayMode => requireOneWayMode settings
  | _, .setLeverage symbol leverage => setLeverage settings symbol leverage
  | _, .setMarginMode symbol mode => setMarginMode settings symbol mode
  | _, .marginMode symbol => marginMode settings symbol
  | _, .submit record => submit settings record
  | _, .query symbol clientOrderId => query settings symbol clientOrderId
  | _, .cancel symbol clientOrderId => cancel settings symbol clientOrderId
  | _, f => perform (.keep f)

end Orders

end

end Aetheris.TestnetRequests
