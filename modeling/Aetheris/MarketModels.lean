import Aetheris.Indicators
import Aetheris.PaperRecords
import Aetheris.VenueAnswers

namespace Aetheris.MarketModels

open Lib Money Clock PaperRecords VenueAnswers

inductive SymbolStatus
  | trading | pendingTrading | preDelivering | delivering | delivered | preSettle | settling | close | halt
  | break_ | auctionMatch | unknown
  deriving DecidableEq, Repr

def SymbolStatus.value : SymbolStatus → String
  | trading => "TRADING"
  | pendingTrading => "PENDING_TRADING"
  | preDelivering => "PRE_DELIVERING"
  | delivering => "DELIVERING"
  | delivered => "DELIVERED"
  | preSettle => "PRE_SETTLE"
  | settling => "SETTLING"
  | close => "CLOSE"
  | halt => "HALT"
  | break_ => "BREAK"
  | auctionMatch => "AUCTION_MATCH"
  | unknown => "UNKNOWN"

def SymbolStatus.members : List SymbolStatus :=
  [trading, pendingTrading, preDelivering, delivering, delivered, preSettle, settling, close, halt, break_,
    auctionMatch, unknown]

inductive ContractType
  | perpetual | currentMonth | nextMonth | currentQuarter | nextQuarter | perpetualDelivering | unknown
  deriving DecidableEq, Repr

def ContractType.value : ContractType → String
  | perpetual => "PERPETUAL"
  | currentMonth => "CURRENT_MONTH"
  | nextMonth => "NEXT_MONTH"
  | currentQuarter => "CURRENT_QUARTER"
  | nextQuarter => "NEXT_QUARTER"
  | perpetualDelivering => "PERPETUAL_DELIVERING"
  | unknown => "UNKNOWN"

def ContractType.members : List ContractType :=
  [perpetual, currentMonth, nextMonth, currentQuarter, nextQuarter, perpetualDelivering, unknown]

/-! ### Validation -/

inductive Violation
  | finiteNumber
  | greaterThan (bound : Int)
  | greaterThanEqual (bound : Int)
  | valueError (message : String)
  deriving DecidableEq

/-- What a model refuses its input with: every field at fault, or the model's
own validator, which stands at no field. -/
structure ValidationError where
  title : String
  errors : List (String × Violation)
  deriving DecidableEq

/-- The constraint a numeric field declares. -/
inductive Bound
  | free | positive | nonnegative

def Bound.violation : Bound → Decimal → Option Violation
  | .free, _ => none
  | .positive, value => if 0 < value then none else some (.greaterThan 0)
  | .nonnegative, value => if 0 ≤ value then none else some (.greaterThanEqual 0)

def numberViolation (bound : Bound) (x : Number) : Option Violation :=
  match finite? x with
  | none => some .finiteNumber
  | some value => bound.violation value

def fieldError (name : String) (bound : Bound) (x : Option Number) : Option (String × Violation) :=
  (x.bind (numberViolation bound)).map fun violation => (name, violation)

def countError (name : String) (n : Option Int) : Option (String × Violation) :=
  (n.bind fun n => if 0 ≤ n then none else some (.greaterThanEqual 0)).map fun violation => (name, violation)

/-! ### Instruments -/

structure FilterFields (ν : Type) where
  tickSize : ν
  stepSize : ν
  minQuantity : ν
  maxQuantity : Option ν
  minPrice : Option ν
  maxPrice : Option ν
  minNotional : Option ν
  marketStepSize : Option ν
  marketMinQuantity : Option ν
  marketMaxQuantity : Option ν

/-- Venue constraints an order must satisfy. -/
structure SymbolFilters extends FilterFields Decimal where
  tickSize_pos : 0 < tickSize
  stepSize_pos : 0 < stepSize
  minQuantity_nonneg : 0 ≤ minQuantity

def FilterFields.finite (given : FilterFields Number) : Option (FilterFields Decimal) := do
  return { tickSize := ← finite? given.tickSize
           stepSize := ← finite? given.stepSize
           minQuantity := ← finite? given.minQuantity
           maxQuantity := ← given.maxQuantity.mapM finite?
           minPrice := ← given.minPrice.mapM finite?
           maxPrice := ← given.maxPrice.mapM finite?
           minNotional := ← given.minNotional.mapM finite?
           marketStepSize := ← given.marketStepSize.mapM finite?
           marketMinQuantity := ← given.marketMinQuantity.mapM finite?
           marketMaxQuantity := ← given.marketMaxQuantity.mapM finite? }

def FilterFields.errors (given : FilterFields Number) : List (String × Violation) :=
  [fieldError "tick_size" .positive (some given.tickSize), fieldError "step_size" .positive (some given.stepSize),
    fieldError "min_quantity" .nonnegative (some given.minQuantity), fieldError "max_quantity" .free given.maxQuantity,
    fieldError "min_price" .free given.minPrice, fieldError "max_price" .free given.maxPrice,
    fieldError "min_notional" .free given.minNotional, fieldError "market_step_size" .free given.marketStepSize,
    fieldError "market_min_quantity" .free given.marketMinQuantity,
    fieldError "market_max_quantity" .free given.marketMaxQuantity].filterMap id

def SymbolFilters.validate (given : FilterFields Number) : Except ValidationError SymbolFilters :=
  match given.finite with
  | none => .error ⟨"SymbolFilters", given.errors⟩
  | some fields =>
      if h : 0 < fields.tickSize ∧ 0 < fields.stepSize ∧ 0 ≤ fields.minQuantity then
        .ok { fields with tickSize_pos := h.1, stepSize_pos := h.2.1, minQuantity_nonneg := h.2.2 }
      else .error ⟨"SymbolFilters", given.errors⟩

structure SymbolFields where
  symbol : String
  baseAsset : String
  quoteAsset : String
  marginAsset : Option String
  status : SymbolStatus
  contractType : ContractType
  pricePrecision : Int
  quantityPrecision : Int
  baseAssetPrecision : Option Int
  quotePrecision : Option Int
  filters : SymbolFilters
  onboardDate : Option Timestamp
  deliveryDate : Option Timestamp
  orderTypes : List String
  timeInForce : List String
  maxLeverage : Option Int

/-- A tradable instrument, normalized. -/
structure Symbol extends SymbolFields where
  pricePrecision_nonneg : 0 ≤ pricePrecision
  quantityPrecision_nonneg : 0 ≤ quantityPrecision
  baseAssetPrecision_nonneg : ∀ n ∈ baseAssetPrecision, 0 ≤ n
  quotePrecision_nonneg : ∀ n ∈ quotePrecision, 0 ≤ n

def SymbolFields.errors (given : SymbolFields) : List (String × Violation) :=
  [countError "price_precision" (some given.pricePrecision),
    countError "quantity_precision" (some given.quantityPrecision),
    countError "base_asset_precision" given.baseAssetPrecision,
    countError "quote_precision" given.quotePrecision].filterMap id

def Symbol.validate (given : SymbolFields) : Except ValidationError Symbol :=
  if h : 0 ≤ given.pricePrecision ∧ 0 ≤ given.quantityPrecision ∧ (∀ n ∈ given.baseAssetPrecision, 0 ≤ n) ∧
      ∀ n ∈ given.quotePrecision, 0 ≤ n then
    .ok { given with
      pricePrecision_nonneg := h.1
      quantityPrecision_nonneg := h.2.1
      baseAssetPrecision_nonneg := h.2.2.1
      quotePrecision_nonneg := h.2.2.2 }
  else .error ⟨"Symbol", given.errors⟩

structure ExchangeInfo where
  exchange : String
  serverTime : Option Timestamp
  symbols : List Symbol

/-! ### Tickers -/

structure TickerFields (ν : Type) where
  symbol : String
  lastPrice : ν
  bidPrice : Option ν
  askPrice : Option ν
  high24h : Option ν
  low24h : Option ν
  open24h : Option ν
  volume24h : Option ν
  quoteVolume24h : Option ν
  priceChange24h : Option ν
  priceChangePercent24h : Option ν
  eventTime : Option Timestamp

/-- Statistics of a day, with the best bid and ask where published. -/
abbrev Ticker := TickerFields Decimal

def TickerFields.finite (given : TickerFields Number) : Option Ticker := do
  return { symbol := given.symbol
           lastPrice := ← finite? given.lastPrice
           bidPrice := ← given.bidPrice.mapM finite?
           askPrice := ← given.askPrice.mapM finite?
           high24h := ← given.high24h.mapM finite?
           low24h := ← given.low24h.mapM finite?
           open24h := ← given.open24h.mapM finite?
           volume24h := ← given.volume24h.mapM finite?
           quoteVolume24h := ← given.quoteVolume24h.mapM finite?
           priceChange24h := ← given.priceChange24h.mapM finite?
           priceChangePercent24h := ← given.priceChangePercent24h.mapM finite?
           eventTime := given.eventTime }

def TickerFields.errors (given : TickerFields Number) : List (String × Violation) :=
  [fieldError "last_price" .free (some given.lastPrice), fieldError "bid_price" .free given.bidPrice,
    fieldError "ask_price" .free given.askPrice, fieldError "high_24h" .free given.high24h,
    fieldError "low_24h" .free given.low24h, fieldError "open_24h" .free given.open24h,
    fieldError "volume_24h" .free given.volume24h, fieldError "quote_volume_24h" .free given.quoteVolume24h,
    fieldError "price_change_24h" .free given.priceChange24h,
    fieldError "price_change_percent_24h" .free given.priceChangePercent24h].filterMap id

def Ticker.validate (given : TickerFields Number) : Except ValidationError Ticker :=
  match given.finite with
  | none => .error ⟨"Ticker", given.errors⟩
  | some ticker => .ok ticker

def TickerFields.numbers (given : TickerFields Number) : List Number :=
  given.lastPrice :: [given.bidPrice, given.askPrice, given.high24h, given.low24h, given.open24h, given.volume24h,
    given.quoteVolume24h, given.priceChange24h, given.priceChangePercent24h].filterMap id

theorem mapM_finite_isSome {x : Option Number} : (x.mapM finite?).isSome ↔ ∀ n ∈ x, (finite? n).isSome := by
  cases x with
  | none => simp
  | some n => cases hfinite : finite? n <;> simp [hfinite]

theorem isSome_bind_iff {α β : Type} {x : Option α} {f : α → Option β} {p : Prop} (h : ∀ a, (f a).isSome ↔ p) :
    (x >>= f).isSome ↔ x.isSome ∧ p := by
  cases x with
  | none => simp
  | some a => simpa using h a

theorem TickerFields.finite_isSome (given : TickerFields Number) :
    given.finite.isSome ↔ ∀ x ∈ given.numbers, (finite? x).isSome := by
  have hfields : given.finite.isSome ↔ (finite? given.lastPrice).isSome ∧ (given.bidPrice.mapM finite?).isSome ∧
      (given.askPrice.mapM finite?).isSome ∧ (given.high24h.mapM finite?).isSome ∧
      (given.low24h.mapM finite?).isSome ∧ (given.open24h.mapM finite?).isSome ∧
      (given.volume24h.mapM finite?).isSome ∧ (given.quoteVolume24h.mapM finite?).isSome ∧
      (given.priceChange24h.mapM finite?).isSome ∧ (given.priceChangePercent24h.mapM finite?).isSome ∧ True := by
    refine isSome_bind_iff fun lastPrice => isSome_bind_iff fun bidPrice => isSome_bind_iff fun askPrice => ?_
    refine isSome_bind_iff fun high24h => isSome_bind_iff fun low24h => isSome_bind_iff fun open24h => ?_
    refine isSome_bind_iff fun volume24h => isSome_bind_iff fun quoteVolume24h => ?_
    exact isSome_bind_iff fun priceChange24h => isSome_bind_iff fun priceChangePercent24h => by simp
  rw [hfields, TickerFields.numbers, List.forall_mem_cons, List.forall_mem_filterMap]
  simp [mapM_finite_isSome]

/-! ### Candles -/

structure CandleFields where
  openTime : Timestamp
  closeTime : Timestamp
  open_ : Number
  high : Number
  low : Number
  close : Number
  volume : Number
  quoteVolume : Number
  tradeCount : Option Int

/-- A bar with the volume in quote currency and the number of trades. -/
structure Candle extends Indicators.Candle where
  quoteVolume : Option Decimal
  tradeCount : Option Int
  quoteVolume_nonneg : ∀ v ∈ quoteVolume, 0 ≤ v
  tradeCount_nonneg : ∀ n ∈ tradeCount, 0 ≤ n

def CandleFields.errors (given : CandleFields) : List (String × Violation) :=
  [fieldError "open" .nonnegative (some given.open_), fieldError "high" .nonnegative (some given.high),
    fieldError "low" .nonnegative (some given.low), fieldError "close" .nonnegative (some given.close),
    fieldError "volume" .nonnegative (some given.volume),
    fieldError "quote_volume" .nonnegative (some given.quoteVolume),
    countError "trade_count" given.tradeCount].filterMap id

def inconsistent (message : String) : ValidationError := ⟨"Candle", [("", .valueError message)]⟩

def outside (name : String) (value low high : Decimal) : String :=
  let shown := str value
  let shownLow := str low
  let shownHigh := str high
  s!"candle {name} {shown} outside [{shownLow}, {shownHigh}]"

/-- The fields first, each by itself; then the bar as a whole. -/
def Candle.validate (given : CandleFields) : Except ValidationError Candle :=
  match finite? given.open_, finite? given.high, finite? given.low, finite? given.close, finite? given.volume,
      finite? given.quoteVolume with
  | some open_, some high, some low, some close, some volume, some quoteVolume =>
      if hfields : 0 ≤ open_ ∧ 0 ≤ high ∧ 0 ≤ low ∧ 0 ≤ close ∧ 0 ≤ volume ∧ 0 ≤ quoteVolume ∧
          ∀ n ∈ given.tradeCount, 0 ≤ n then
        let shownHigh := str high
        let shownLow := str low
        if high < low then .error (inconsistent s!"candle high {shownHigh} is below low {shownLow}")
        else if hopen : ¬ (low ≤ open_ ∧ open_ ≤ high) then .error (inconsistent (outside "open" open_ low high))
        else if hclose : ¬ (low ≤ close ∧ close ≤ high) then .error (inconsistent (outside "close" close low high))
        else if htime : given.closeTime ≤ given.openTime then
          .error (inconsistent "candle close_time must be after open_time")
        else .ok
          { openTime := given.openTime
            closeTime := given.closeTime
            open_ := open_
            high := high
            low := low
            close := close
            volume := volume
            low_nonneg := hfields.2.2.1
            low_le_open := (not_not.mp hopen).1
            open_le_high := (not_not.mp hopen).2
            low_le_close := (not_not.mp hclose).1
            close_le_high := (not_not.mp hclose).2
            volume_nonneg := hfields.2.2.2.2.1
            ordered := not_le.mp htime
            quoteVolume := some quoteVolume
            tradeCount := given.tradeCount
            quoteVolume_nonneg := fun _ hv => Option.some.inj hv ▸ hfields.2.2.2.2.2.1
            tradeCount_nonneg := hfields.2.2.2.2.2.2 }
      else .error ⟨"Candle", given.errors⟩
  | _, _, _, _, _, _ => .error ⟨"Candle", given.errors⟩

/-- The validator's loop over the bars, and the open time of the one before. -/
def strictlyOrdered : Option Timestamp → List Candle → Bool
  | _, [] => true
  | previous, candle :: rest =>
      match previous with
      | some previous => decide (previous < candle.openTime) && strictlyOrdered (some candle.openTime) rest
      | none => strictlyOrdered (some candle.openTime) rest

theorem ascending_of_strictlyOrdered {previous : Option Timestamp} {candles : List Candle}
    (h : strictlyOrdered previous candles) :
    (candles.Pairwise fun a b => a.openTime < b.openTime) ∧
      ∀ t ∈ previous, ∀ candle ∈ candles, t < candle.openTime := by
  induction candles generalizing previous with
  | nil => exact ⟨.nil, fun _ _ _ hc => absurd hc List.not_mem_nil⟩
  | cons candle rest ih =>
      cases previous with
      | none =>
          obtain ⟨hrest, hafter⟩ := ih h
          exact ⟨List.pairwise_cons.mpr ⟨hafter _ rfl, hrest⟩, fun _ ht => absurd ht (Option.not_mem_none _)⟩
      | some t =>
          obtain ⟨hfirst, h⟩ := Bool.and_eq_true_iff.mp h
          have hfirst : t < candle.openTime := of_decide_eq_true hfirst
          obtain ⟨hrest, hafter⟩ := ih h
          refine ⟨List.pairwise_cons.mpr ⟨hafter _ rfl, hrest⟩, ?_⟩
          rintro _ ⟨⟩ other hother
          rcases List.mem_cons.mp hother with rfl | hother
          · exact hfirst
          · exact hfirst.trans (hafter _ rfl other hother)

/-- An ordered run of candles for one symbol and timeframe. -/
structure CandleSeries where
  symbol : String
  timeframe : Timeframe
  candles : List Candle
  ascending : candles.Pairwise fun a b => a.openTime < b.openTime

def CandleSeries.validate (symbol : String) (timeframe : Timeframe) (candles : List Candle) :
    Except ValidationError CandleSeries :=
  if h : strictlyOrdered none candles then .ok ⟨symbol, timeframe, candles, (ascending_of_strictlyOrdered h).1⟩
  else .error ⟨"CandleSeries", [("", .valueError "candles must be strictly ordered by open_time")]⟩

end Aetheris.MarketModels
