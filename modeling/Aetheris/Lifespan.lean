import Aetheris.OrderEngine
import Aetheris.TestnetRequests

namespace Aetheris.Lifespan

open Lib Coroutine Money Clock
open OrderEngine (RecoveryReport)
open TestnetRequests (AdapterError positionSideDual isTrue)
open VenueAnswers (Interpreter Json Payload Number field numberOfText finite?)

def serverTime : String := "/fapi/v1/time"

def account : String := "/fapi/v3/account"

def accountV2 : String := "/fapi/v2/account"

inductive PositionMode
  | oneWay | hedge
  deriving DecidableEq

/-- Who we are at the venue. A permission that the venue did not report is not a refusal. -/
structure VenueAccount where
  accountId : String
  positionMode : PositionMode
  canTrade : Option Bool
  availableBalance : Option Decimal

/-- What may be raised while the process starts and stops. -/
inductive Mishap
  | databaseUnavailable (detail : String)
  | adapter (error : AdapterError)
  | other (detail : String)

def Mishap.isExchangeError : Mishap → Bool
  | adapter error => error.isExchangeError
  | _ => false

structure Settings where
  databaseConfigured : Bool
  testnetTradingEnabled : Bool
  paperStartingBalance : Decimal

structure TestnetExecution where
  accountId : String
  sessionStart : Timestamp

/-- What the routes find on the application. -/
structure AppState where
  dbEngine : Bool := false
  dbSessions : Bool := false
  orderAccountId : Option String := none
  orderRecovery : Option RecoveryReport := none
  paperSnapshots : Bool := false
  paperRestored : Bool := false
  testnetAdapter : Bool := false
  testnetService : Option TestnetExecution := none

/-- Why there is no testnet execution. -/
inductive Reason
  | modeNotEnabled
  | noDurableStore
  | failed (mishap : Mishap)
  | tradingDisabled
  | permissionUnknown

inductive Resource
  | loop | marketData | adapter | pool
  deriving DecidableEq

/-- What starting and stopping awaits, and what they do to the objects they hold. -/
inductive LifeEffect : Type → Type 1
  | buildEngine : LifeEffect Unit
  | checkConnectivity : LifeEffect Bool
  | ensureOwner : LifeEffect String
  | ensureAccount (ownerId : String) (startingBalance : Decimal) : LifeEffect String
  | recover (accountId : String) (now : Timestamp) : LifeEffect RecoveryReport
  | bindOrderEngine (accountId : String) : LifeEffect Unit
  | bindSnapshotStore (accountId : String) : LifeEffect Unit
  | restore : LifeEffect Bool
  | openAdapter : LifeEffect Unit
  | request (signed : Bool) (path : String) : LifeEffect Json
  | timestampMs : LifeEffect Int
  | offsetClock (offsetMs : Int) : LifeEffect Unit
  | utcnow : LifeEffect Timestamp
  | unavailable (reason : Reason) : LifeEffect Unit
  | startLoop : LifeEffect Unit
  | serve (app : AppState) : LifeEffect Unit
  | close (resource : Resource) : LifeEffect Unit

abbrev LifeM := Coroutine LifeEffect Mishap

def invalid {α : Type} (message : String) : LifeM α := raise (.adapter (.invalidResponse message))

section Adapter

variable [Interpreter]

/-- The offset of our clock from the venue's, measured before anything is signed. -/
def syncClock : LifeM Int := do
  match ← perform (.request false serverTime) with
  | .dict payload =>
      match payload.lookup "serverTime" with
      | none => invalid "venue did not return a server time"
      | some time => do
          let venueMs ← finished (time.toInt.mapError fun e => .adapter (.other e))
          let offsetMs := venueMs - (← perform .timestampMs)
          perform (.offsetClock offsetMs)
          return offsetMs
  | _ => invalid "venue did not return a server time"

/-- The mode that an answer reports, where it reports one. -/
def modeOf : Json → Option PositionMode
  | .dict payload => (payload.lookup "dualSidePosition").map fun dual => if isTrue dual then .hedge else .oneWay
  | _ => none

def positionMode : LifeM PositionMode := do
  match modeOf (← perform (.request true positionSideDual)) with
  | some mode => return mode
  | none => invalid "venue did not report a position mode"

def hedgeDetail : String :=
  "the venue account is in hedge mode. This build sends positionSide=BOTH and supports one-way mode only, so it " ++
    "refuses to trade rather than send orders whose side it cannot guarantee."

def requireOneWayMode : LifeM Unit := do
  if (← positionMode) ≠ .oneWay then raise (.adapter (.hedgeMode hedgeDetail))

/-- Nothing where the venue did not say. -/
def canTradeOf : Option Json → Option Bool
  | some (.dict payload) => (payload.lookup "canTrade").map Json.isTruthy
  | _ => none

/-- `(legacy or {}).get("accountAlias")`; only an object has `get`. -/
def legacyAlias : Option Json → Except Mishap Json
  | none => .ok .null
  | some (.dict payload) => .ok (field payload "accountAlias")
  | some legacy => if legacy.isTruthy then .error (.other "object has no attribute 'get'") else .ok .null

def aliasOf (payload : Payload) (legacy : Option Json) : Except Mishap String :=
  if (field payload "accountAlias").isTruthy then .ok (field payload "accountAlias").str
  else do
    let value ← legacyAlias legacy
    return if value.isTruthy then value.str else "testnet"

/-- A number that is not finite does not validate. -/
def balanceOf (payload : Payload) : Except Mishap (Option Decimal) :=
  match field payload "availableBalance" with
  | .null => .ok none
  | balance =>
      match numberOfText balance.str with
      | none => .error (.other "[<class 'decimal.ConversionSyntax'>]")
      | some number =>
          match finite? number with
          | some value => .ok (some value)
          | none => .error (.other "ValidationError")

/-- A venue that refuses it has not said what the older endpoint says. -/
def legacyAccount : LifeM (Option Json) := do
  match ← (perform (.request true accountV2)).caught with
  | .ok answer => return some answer
  | .error e => if e.isExchangeError then return none else raise e

/-- The balance is the current endpoint's, the permission the older one's. -/
def accountIdentity : LifeM VenueAccount := do
  match ← perform (.request true account) with
  | .dict payload => do
      let mode ← positionMode
      let legacy ← legacyAccount
      let accountId ← finished (aliasOf payload legacy)
      let availableBalance ← finished (balanceOf payload)
      return ⟨accountId, mode, canTradeOf legacy, availableBalance⟩
  | _ => invalid "account response was not an object"

end Adapter

section Startup

variable (settings : Settings)

/-- The one account of the one owner. -/
def bootstrap : LifeM String := do
  let ownerId ← perform .ensureOwner
  perform (.ensureAccount ownerId settings.paperStartingBalance)

/-- What is attached once the account is known. The store is bound before it is read. -/
def attachOrders (accountId : String) : LifeM AppState := do
  let report ← perform (.recover accountId (← perform .utcnow))
  perform (.bindOrderEngine accountId)
  perform (.bindSnapshotStore accountId)
  let restored ← perform .restore
  return {
    dbEngine := true
    dbSessions := true
    orderAccountId := some accountId
    orderRecovery := some report
    paperSnapshots := true
    paperRestored := restored }

/-- Without a configured and reachable database the order lifecycle is absent. -/
def openOrderStore : LifeM AppState := do
  if settings.databaseConfigured then
    perform .buildEngine
    if ← perform .checkConnectivity then
      match ← (bootstrap settings).caught with
      | .ok accountId => attachOrders accountId
      | .error (.databaseUnavailable _) => return { dbEngine := true, dbSessions := true }
      | .error e => raise e
    else return { dbEngine := true }
  else return {}

variable [Interpreter]

/-- What the venue has to answer before anything is attached. -/
def identified : LifeM VenueAccount := do
  perform .openAdapter
  let _ ← syncClock
  requireOneWayMode
  accountIdentity

def withoutTestnet (reason : Reason) (app : AppState) : LifeM AppState := do
  perform (.unavailable reason)
  return app

/-- Testnet execution is attached, or nothing is and the reason is given. -/
def openTestnetExecution (app : AppState) : LifeM AppState :=
  if ¬ settings.testnetTradingEnabled then withoutTestnet .modeNotEnabled app
  else match app.orderAccountId with
    | none => withoutTestnet .noDurableStore app
    | some accountId => do
        match ← identified.caught with
        | .error e => if e.isExchangeError then withoutTestnet (.failed e) app else raise e
        | .ok account =>
            if account.canTrade = some true then do
              let sessionStart ← perform .utcnow
              return { app with testnetAdapter := true, testnetService := some ⟨accountId, sessionStart⟩ }
            else do
              perform (.unavailable (if account.canTrade = some false then .tradingDisabled else .permissionUnknown))
              perform (.close .adapter)
              return app

/-- In the order in which they are closed. -/
def AppState.closers (app : AppState) : List Resource :=
  [.loop, .marketData] ++ (if app.testnetAdapter then [.adapter] else []) ++ if app.dbEngine then [.pool] else []

def closeAll : List Resource → LifeM Unit
  | [] => return ()
  | resource :: rest => do
      perform (.close resource)
      closeAll rest

/-- What is opened is closed when serving ends, however it ends. -/
def lifespan : LifeM Unit := do
  let app ← openOrderStore settings
  let app ← openTestnetExecution settings app
  perform .startLoop
  let served ← (perform (.serve app)).caught
  closeAll app.closers
  finished served

end Startup

end Aetheris.Lifespan
