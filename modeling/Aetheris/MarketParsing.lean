import Aetheris.Lib.Dict
import Aetheris.MarketModels

namespace Aetheris.MarketParsing

open Lib Money Clock PaperRecords VenueAnswers MarketModels

inductive ParseError
  | invalidResponse (message : String) (details : List (String × Json))
  | validationError (error : ValidationError)
  | invalidMoney (message : String)

abbrev Parsed := Except ParseError

/-- What the parsers take from the libraries below them: a time from epoch
milliseconds, by floating point, with nothing where it overflows or is out of
range; and how a validation error is displayed. -/
class Platform extends Interpreter where
  fromtimestamp : Int → Option Timestamp
  describe : ValidationError → String

def fail {α : Type} (message : String) (details : List (String × Json)) : Parsed α :=
  .error (.invalidResponse message details)

def Json.typeName : Json → String
  | .null => "NoneType"
  | .bool _ => "bool"
  | .int _ => "int"
  | .float _ => "float"
  | .text _ => "str"
  | .list _ => "list"
  | .dict _ => "dict"

/-- `value == 0`. -/
def isZero : Json → Bool
  | .bool value => !value
  | .int value => value = 0
  | .float (.finite value) => value = 0
  | _ => false

/-- A decimal that is no number counts as true. -/
def isTruthy : Number → Bool
  | .finite value => value.value ≠ 0
  | _ => true

def integer (n : Int) : Number := .finite ⟨decide (n < 0), n.natAbs, 0⟩

section Scalars

variable [Platform]

def toDecimal (text : String) : Parsed Number :=
  let shown := Interpreter.reprText text
  match numberOfText text with
  | some value => .ok value
  | none => .error (.invalidMoney s!"cannot represent {shown} as a decimal amount")

/-- The one class of error that a conversion raises, made the parser's own. -/
def converted (name : String) (result : Parsed Number) : Parsed Number :=
  let shown := Interpreter.reprText name
  match result with
  | .error (.invalidMoney _) => fail s!"field {shown} is not a valid number" [("field", .text name)]
  | result => result

def decimalFromJson (value : Json) (name : String) : Parsed Number :=
  let shown := Interpreter.reprText name
  let typeName := Json.typeName value
  match value with
  | .null => fail s!"missing numeric field {shown}" [("field", .text name)]
  | .bool _ => fail s!"field {shown} is a boolean, not a number" [("field", .text name)]
  | .float value => converted name (toDecimal value.text)
  | .int value => .ok (integer value)
  | .text value => converted name (toDecimal value)
  | .list _ | .dict _ => fail s!"field {shown} has unexpected type {typeName}" [("field", .text name)]

def optionalDecimal (raw : Payload) (key : String) : Parsed (Option Number) :=
  match field raw key with
  | .null => .ok none
  | value => (decimalFromJson value key).map some

def timestampFromMillis (value : Json) (name : String) : Parsed Timestamp :=
  let shown := Interpreter.reprText name
  match value with
  | .int value =>
      match Platform.fromtimestamp value with
      | some t => .ok t
      | none => fail s!"field {shown} is not a representable timestamp" [("field", .text name)]
  | _ => fail s!"field {shown} is not an epoch-millisecond integer" [("field", .text name)]

/-- Absent is written as 0, and a date out of range is dropped. -/
def optionalTimestamp (raw : Payload) (key : String) : Parsed (Option Timestamp) :=
  match field raw key with
  | .null => .ok none
  | value =>
      if isZero value then .ok none
      else match timestampFromMillis value key with
        | .ok t => .ok (some t)
        | .error (.invalidResponse _ _) => .ok none
        | .error e => .error e

def requireStr (raw : Payload) (key : String) : Parsed String :=
  let shown := Interpreter.reprText key
  match field raw key with
  | .text value => if value = "" then fail s!"missing required string field {shown}" [("field", .text key)] else .ok value
  | _ => fail s!"missing required string field {shown}" [("field", .text key)]

def requireInt (raw : Payload) (key : String) : Parsed Int :=
  let shown := Interpreter.reprText key
  match field raw key with
  | .int value => .ok value
  | _ => fail s!"missing required integer field {shown}" [("field", .text key)]

def validated {α : Type} (result : Except ValidationError α) : Parsed α := result.mapError .validationError

end Scalars

def optionalInt (raw : Payload) (key : String) : Option Int :=
  match field raw key with
  | .int value => some value
  | _ => none

def textOf? : Json → Option String
  | .text value => some value
  | _ => none

def stringTuple (raw : Payload) (key : String) : List String :=
  match field raw key with
  | .list items => items.filterMap textOf?
  | _ => []

/-- A value never seen before becomes the unknown one. -/
def enumOrUnknown {ε : Type} (members : List ε) (value : ε → String) (raw : Json) (unknown : ε) : ε :=
  match raw with
  | .text text => (members.find? fun member => value member = text).getD unknown
  | _ => unknown

/-- Entries by the text under a key of theirs; the last of a name stays. -/
def entriesBy (key : String) (entries : List Json) : Dict String Payload :=
  entries.foldl (fun found entry =>
    match entry with
    | .dict payload =>
        match field payload key with
        | .text name => found.set name payload
        | _ => found
    | _ => found) .empty

/-- `x or y`. -/
def firstTruthy (x y : Parsed (Option Number)) : Parsed (Option Number) :=
  match x with
  | .ok published => if published.any isTruthy then .ok published else y
  | .error e => .error e

section Parsers

variable [Platform]

def extractFilters (rawFilters : Json) (symbol : String) : Parsed SymbolFilters :=
  match rawFilters with
  | .list entries => do
      let byType := entriesBy "filterType" entries
      match byType.get? "PRICE_FILTER", byType.get? "LOT_SIZE" with
      | some price, some lot =>
          let marketLot := (byType.get? "MARKET_LOT_SIZE").getD []
          let notional := (byType.get? "MIN_NOTIONAL").getD []
          let tickSize ← decimalFromJson (field price "tickSize") "tickSize"
          let stepSize ← decimalFromJson (field lot "stepSize") "stepSize"
          let minQuantity ← decimalFromJson (field lot "minQty") "minQty"
          let maxQuantity ← optionalDecimal lot "maxQty"
          let minPrice ← optionalDecimal price "minPrice"
          let maxPrice ← optionalDecimal price "maxPrice"
          let minNotional ← firstTruthy (optionalDecimal notional "notional") (optionalDecimal notional "minNotional")
          let marketStepSize ← optionalDecimal marketLot "stepSize"
          let marketMinQuantity ← optionalDecimal marketLot "minQty"
          let marketMaxQuantity ← optionalDecimal marketLot "maxQty"
          validated (SymbolFilters.validate
            { tickSize, stepSize, minQuantity, maxQuantity, minPrice, maxPrice, minNotional, marketStepSize,
              marketMinQuantity, marketMaxQuantity })
      | _, _ =>
          let present := byType.keys.mergeSort (· ≤ ·)
          fail s!"symbol {symbol} is missing PRICE_FILTER or LOT_SIZE"
            [("symbol", .text symbol), ("filters_present", .list (present.map .text))]
  | _ => fail s!"symbol {symbol} has no filter list" [("symbol", .text symbol)]

/-- Normalize one instrument. Its greatest leverage is not public. -/
def parseSymbol (raw : Payload) : Parsed Symbol := do
  let name ← requireStr raw "symbol"
  let baseAsset ← requireStr raw "baseAsset"
  let quoteAsset ← requireStr raw "quoteAsset"
  let pricePrecision ← requireInt raw "pricePrecision"
  let quantityPrecision ← requireInt raw "quantityPrecision"
  let filters ← extractFilters (field raw "filters") name
  let onboardDate ← optionalTimestamp raw "onboardDate"
  let deliveryDate ← optionalTimestamp raw "deliveryDate"
  validated (Symbol.validate
    { symbol := name
      baseAsset := baseAsset
      quoteAsset := quoteAsset
      marginAsset := textOf? (field raw "marginAsset")
      status := enumOrUnknown SymbolStatus.members SymbolStatus.value (field raw "status") .unknown
      contractType := enumOrUnknown ContractType.members ContractType.value (field raw "contractType") .unknown
      pricePrecision := pricePrecision
      quantityPrecision := quantityPrecision
      baseAssetPrecision := optionalInt raw "baseAssetPrecision"
      quotePrecision := optionalInt raw "quotePrecision"
      filters := filters
      onboardDate := onboardDate
      deliveryDate := deliveryDate
      orderTypes := stringTuple raw "orderTypes"
      timeInForce := stringTuple raw "timeInForce"
      maxLeverage := none })

/-- The loop of both list parsers: a malformed entry is skipped. -/
def collect {α : Type} (parse : Payload → Parsed α) : List Json → List α → Parsed (List α)
  | [], parsed => .ok parsed
  | .dict entry :: rest, parsed =>
      match parse entry with
      | .ok model => collect parse rest (parsed ++ [model])
      | .error (.invalidResponse _ _) => collect parse rest parsed
      | .error (.validationError _) => collect parse rest parsed
      | .error e => .error e
  | _ :: rest, parsed => collect parse rest parsed

def serverTimeOf (payload : Payload) : Parsed (Option Timestamp) :=
  match field payload "serverTime" with
  | .int millis => (timestampFromMillis (.int millis) "serverTime").map some
  | _ => .ok none

def parseExchangeInfo (raw : Json) : Parsed ExchangeInfo :=
  match raw with
  | .dict payload =>
      match field payload "symbols" with
      | .list rawSymbols => do
          let symbols ← collect parseSymbol rawSymbols []
          if rawSymbols ≠ [] ∧ symbols = [] then
            fail "no symbol in the exchangeInfo response could be parsed"
              [("symbols_received", .int rawSymbols.length)]
          else
            let serverTime ← serverTimeOf payload
            return { exchange := "binance-futures-usdm", serverTime := serverTime, symbols := symbols }
      | _ => fail "exchangeInfo response has no symbols array" []
  | _ => fail "exchangeInfo response was not a JSON object" []

def bookDecimal (book : Json) (key : String) : Parsed (Option Number) :=
  match book with
  | .dict book => optionalDecimal book key
  | _ => .ok none

def eventTimeOf (raw : Payload) : Parsed (Option Timestamp) :=
  match optionalTimestamp raw "closeTime" with
  | .ok none => optionalTimestamp raw "time"
  | result => result

/-- Normalize a ticker of a day, merging best bid and ask when available. -/
def parseTicker (raw book : Json) : Parsed Ticker :=
  match raw with
  | .dict raw => do
      let symbol ← requireStr raw "symbol"
      let bidPrice ← bookDecimal book "bidPrice"
      let askPrice ← bookDecimal book "askPrice"
      let lastPrice ← decimalFromJson (field raw "lastPrice") "lastPrice"
      let high24h ← optionalDecimal raw "highPrice"
      let low24h ← optionalDecimal raw "lowPrice"
      let open24h ← optionalDecimal raw "openPrice"
      let volume24h ← optionalDecimal raw "volume"
      let quoteVolume24h ← optionalDecimal raw "quoteVolume"
      let priceChange24h ← optionalDecimal raw "priceChange"
      let priceChangePercent24h ← optionalDecimal raw "priceChangePercent"
      let eventTime ← eventTimeOf raw
      validated (Ticker.validate
        { symbol, lastPrice, bidPrice, askPrice, high24h, low24h, open24h, volume24h, quoteVolume24h, priceChange24h,
          priceChangePercent24h, eventTime })
  | _ => fail "ticker response was not a JSON object" []

def tickerEntry (books : Dict String Payload) (entry : Payload) : Parsed Ticker :=
  parseTicker (.dict entry) <|
    match field entry "symbol" with
    | .text symbol => ((books.get? symbol).map Json.dict).getD .null
    | _ => .null

def booksBySymbol : Json → Dict String Payload
  | .list entries => entriesBy "symbol" entries
  | _ => .empty

def parseTickerList (raw book : Json) : Parsed (List Ticker) :=
  match raw with
  | .list entries => do
      let tickers ← collect (tickerEntry (booksBySymbol book)) entries []
      if entries ≠ [] ∧ tickers = [] then
        fail "no ticker in the snapshot could be parsed" [("tickers_received", .int entries.length)]
      else return tickers
  | _ => fail "ticker list response was not a JSON array" []

def invalidAs {α : Type} (message : String) (result : Parsed α) : Parsed α :=
  match result with
  | .error (.validationError e) =>
      fail message [("reason", .text (String.ofList ((Platform.describe e).toList.take 200)))]
  | result => result

/-- Normalize one kline row, validating it rather than repairing it. -/
def parseCandle (row : Json) : Parsed Candle :=
  match row with
  | .list (openTime :: open_ :: high :: low :: close :: volume :: closeTime :: quoteVolume :: tradeCount :: _) =>
      invalidAs "kline row failed candle validation" do
        let openTime ← timestampFromMillis openTime "openTime"
        let closeTime ← timestampFromMillis closeTime "closeTime"
        let open_ ← decimalFromJson open_ "open"
        let high ← decimalFromJson high "high"
        let low ← decimalFromJson low "low"
        let close ← decimalFromJson close "close"
        let volume ← decimalFromJson volume "volume"
        let quoteVolume ← decimalFromJson quoteVolume "quoteVolume"
        let tradeCount := match tradeCount with
          | .int count => some count
          | _ => none
        validated (Candle.validate
          { openTime, closeTime, open_, high, low, close, volume, quoteVolume, tradeCount })
  | _ => fail "kline row is not an array of the expected length" []

def parseKlines (raw : Json) (symbol : String) (timeframe : Timeframe) : Parsed CandleSeries :=
  match raw with
  | .list rows => do
      let candles ← rows.mapM parseCandle
      invalidAs "kline series failed ordering validation" (validated (CandleSeries.validate symbol timeframe candles))
  | _ => fail "klines response was not a JSON array" [("symbol", .text symbol)]

end Parsers

end Aetheris.MarketParsing
