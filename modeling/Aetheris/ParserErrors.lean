import Aetheris.MarketParsing

namespace Aetheris.ParserErrors

open Lib Money Clock PaperRecords VenueAnswers MarketModels MarketParsing

def IsInvalidResponse : ParseError → Prop
  | .invalidResponse _ _ => True
  | _ => False

def IsValidation : ParseError → Prop
  | .validationError _ => True
  | _ => False

/-- What the list parsers catch. -/
def Skippable (e : ParseError) : Prop := IsInvalidResponse e ∨ IsValidation e

/-- Whatever a computation raises is of one kind. -/
def RaisesOnly {α : Type} (kind : ParseError → Prop) (x : Parsed α) : Prop := ∀ e, x = .error e → kind e

section Raising

variable {α β : Type} {kind other : ParseError → Prop}

theorem raisesOnly_ok (a : α) : RaisesOnly kind (.ok a : Parsed α) := fun _ h => nomatch h

theorem raisesOnly_error {e : ParseError} : RaisesOnly kind (.error e : Parsed α) ↔ kind e :=
  ⟨fun h => h e rfl, fun h _ he => Except.error.inj he ▸ h⟩

theorem not_skippable_invalidMoney (message : String) : ¬ Skippable (.invalidMoney message) := fun h => h.elim id id

theorem RaisesOnly.mono {x : Parsed α} (h : RaisesOnly kind x) (himp : ∀ e, kind e → other e) : RaisesOnly other x :=
  fun e he => himp e (h e he)

theorem raisesOnly_bind_iff {x : Parsed α} {f : α → Parsed β} (hx : RaisesOnly kind x) :
    RaisesOnly kind (x >>= f) ↔ ∀ a, x = .ok a → RaisesOnly kind (f a) := by
  cases x with
  | error e =>
      constructor
      · intro _ a ha
        cases ha
      · intro _
        exact raisesOnly_error.mpr (raisesOnly_error.mp hx)
  | ok a =>
      constructor
      · rintro h _ ⟨⟩
        exact h
      · intro h
        exact h a rfl

theorem raisesOnly_bind {x : Parsed α} {f : α → Parsed β} (hx : RaisesOnly kind x) (hf : ∀ a, RaisesOnly kind (f a)) :
    RaisesOnly kind (x >>= f) :=
  (raisesOnly_bind_iff hx).mpr fun a _ => hf a

theorem raisesOnly_map {x : Parsed α} {f : α → β} (hx : RaisesOnly kind x) : RaisesOnly kind (x.map f) := by
  cases x with
  | error e => exact raisesOnly_error.mpr (raisesOnly_error.mp hx)
  | ok a => exact raisesOnly_ok (f a)

theorem raisesOnly_mapM {f : α → Parsed β} (h : ∀ a, RaisesOnly kind (f a)) (l : List α) :
    RaisesOnly kind (l.mapM f) := by
  induction l with
  | nil => exact raisesOnly_ok []
  | cons a l ih =>
      rw [List.mapM_cons]
      exact raisesOnly_bind (h a) fun b => raisesOnly_bind ih fun bs => raisesOnly_ok (b :: bs)

theorem raisesOnly_fail {message : String} {details : List (String × Json)} :
    RaisesOnly IsInvalidResponse (fail message details : Parsed α) :=
  raisesOnly_error.mpr trivial

theorem skippable_of_oneWay {x : Parsed α} (h : RaisesOnly IsInvalidResponse x) : RaisesOnly Skippable x :=
  h.mono fun _ => .inl

end Raising

/-! ### Scalars -/

section Scalars

variable [Platform]

theorem raises_toDecimal (text : String) : RaisesOnly (fun e => ∃ message, e = .invalidMoney message) (toDecimal text) := by
  rw [toDecimal]
  cases numberOfText text with
  | some value => exact raisesOnly_ok value
  | none => exact raisesOnly_error.mpr ⟨_, rfl⟩

theorem raises_converted (name text : String) : RaisesOnly IsInvalidResponse (converted name (toDecimal text)) := by
  have htext := raises_toDecimal text
  cases hresult : toDecimal text with
  | ok value => exact raisesOnly_ok value
  | error e =>
      rw [hresult] at htext
      obtain ⟨message, rfl⟩ := raisesOnly_error.mp htext
      exact raisesOnly_fail

theorem raises_decimalFromJson (value : Json) (name : String) :
    RaisesOnly IsInvalidResponse (decimalFromJson value name) := by
  cases value with
  | null => exact raisesOnly_fail
  | bool _ => exact raisesOnly_fail
  | int n => exact raisesOnly_ok (integer n)
  | float x => exact raises_converted name x.text
  | text x => exact raises_converted name x
  | list _ => exact raisesOnly_fail
  | dict _ => exact raisesOnly_fail

theorem raises_optionalDecimal (raw : Payload) (key : String) : RaisesOnly IsInvalidResponse (optionalDecimal raw key) := by
  rw [optionalDecimal]
  split
  · exact raisesOnly_ok none
  · exact raisesOnly_map (raises_decimalFromJson _ key)

theorem raises_timestampFromMillis (value : Json) (name : String) :
    RaisesOnly IsInvalidResponse (timestampFromMillis value name) := by
  rw [timestampFromMillis.eq_def]
  split
  · split
    · exact raisesOnly_ok _
    · exact raisesOnly_fail
  · exact raisesOnly_fail

/-- An optional time is dropped where it cannot be read. -/
theorem optionalTimestamp_ok (raw : Payload) (key : String) : ∃ t, optionalTimestamp raw key = .ok t := by
  rw [optionalTimestamp]
  split
  · exact ⟨none, rfl⟩
  · split
    · exact ⟨none, rfl⟩
    · have hraises := raises_timestampFromMillis (field raw key) key
      cases htime : timestampFromMillis (field raw key) key with
      | ok t => exact ⟨some t, rfl⟩
      | error e =>
          rw [htime] at hraises
          cases e with
          | invalidResponse message details => exact ⟨none, rfl⟩
          | validationError e => exact (raisesOnly_error.mp hraises : IsInvalidResponse (.validationError e)).elim
          | invalidMoney message => exact (raisesOnly_error.mp hraises : IsInvalidResponse (.invalidMoney message)).elim

theorem eventTimeOf_ok (raw : Payload) : ∃ t, eventTimeOf raw = .ok t := by
  obtain ⟨closeTime, hclose⟩ := optionalTimestamp_ok raw "closeTime"
  rw [eventTimeOf, hclose]
  cases closeTime with
  | none => exact optionalTimestamp_ok raw "time"
  | some t => exact ⟨some t, rfl⟩

theorem raises_requireStr (raw : Payload) (key : String) : RaisesOnly IsInvalidResponse (requireStr raw key) := by
  rw [requireStr]
  split
  · split
    · exact raisesOnly_fail
    · exact raisesOnly_ok _
  · exact raisesOnly_fail

theorem raises_requireInt (raw : Payload) (key : String) : RaisesOnly IsInvalidResponse (requireInt raw key) := by
  rw [requireInt]
  split
  · exact raisesOnly_ok _
  · exact raisesOnly_fail

theorem raises_bookDecimal (book : Json) (key : String) : RaisesOnly IsInvalidResponse (bookDecimal book key) := by
  cases book with
  | dict book => exact raises_optionalDecimal book key
  | _ => exact raisesOnly_ok none

omit [Platform] in
theorem raises_validated {α : Type} (result : Except ValidationError α) : RaisesOnly IsValidation (validated result) := by
  cases result with
  | ok a => exact raisesOnly_ok a
  | error e => exact raisesOnly_error.mpr trivial

end Scalars

/-! ### Instruments, tickers and candles -/

section Rows

theorem skippable_fail {α : Type} {message : String} {details : List (String × Json)} :
    RaisesOnly Skippable (fail message details : Parsed α) :=
  skippable_of_oneWay raisesOnly_fail

theorem skippable_validated {α : Type} (result : Except ValidationError α) : RaisesOnly Skippable (validated result) :=
  (raises_validated result).mono fun _ => .inr

theorem skippable_firstTruthy {x y : Parsed (Option Number)} (hx : RaisesOnly Skippable x) (hy : RaisesOnly Skippable y) :
    RaisesOnly Skippable (firstTruthy x y) := by
  cases x with
  | error e => exact raisesOnly_error.mpr (raisesOnly_error.mp hx)
  | ok published =>
      rw [firstTruthy]
      split
      · exact raisesOnly_ok published
      · exact hy

variable [Platform]

theorem skippable_decimal (value : Json) (name : String) : RaisesOnly Skippable (decimalFromJson value name) :=
  skippable_of_oneWay (raises_decimalFromJson value name)

theorem skippable_optional (raw : Payload) (key : String) : RaisesOnly Skippable (optionalDecimal raw key) :=
  skippable_of_oneWay (raises_optionalDecimal raw key)

theorem skippable_extractFilters (rawFilters : Json) (symbol : String) :
    RaisesOnly Skippable (extractFilters rawFilters symbol) := by
  rw [extractFilters.eq_def]
  split
  · dsimp only
    split
    · refine raisesOnly_bind (skippable_decimal _ _) fun tickSize => ?_
      refine raisesOnly_bind (skippable_decimal _ _) fun stepSize => ?_
      refine raisesOnly_bind (skippable_decimal _ _) fun minQuantity => ?_
      refine raisesOnly_bind (skippable_optional _ _) fun maxQuantity => ?_
      refine raisesOnly_bind (skippable_optional _ _) fun minPrice => ?_
      refine raisesOnly_bind (skippable_optional _ _) fun maxPrice => ?_
      refine raisesOnly_bind (skippable_firstTruthy (skippable_optional _ _) (skippable_optional _ _))
        fun minNotional => ?_
      refine raisesOnly_bind (skippable_optional _ _) fun marketStepSize => ?_
      refine raisesOnly_bind (skippable_optional _ _) fun marketMinQuantity => ?_
      exact raisesOnly_bind (skippable_optional _ _) fun marketMaxQuantity => skippable_validated _
    · exact skippable_fail
  · exact skippable_fail

theorem skippable_text (raw : Payload) (key : String) : RaisesOnly Skippable (requireStr raw key) :=
  skippable_of_oneWay (raises_requireStr raw key)

theorem skippable_int (raw : Payload) (key : String) : RaisesOnly Skippable (requireInt raw key) :=
  skippable_of_oneWay (raises_requireInt raw key)

theorem raises_optionalTimestamp {kind : ParseError → Prop} (raw : Payload) (key : String) :
    RaisesOnly kind (optionalTimestamp raw key) := by
  obtain ⟨t, ht⟩ := optionalTimestamp_ok raw key
  rw [ht]
  exact raisesOnly_ok t

theorem skippable_parseSymbol (raw : Payload) : RaisesOnly Skippable (parseSymbol raw) := by
  refine raisesOnly_bind (skippable_text raw _) fun name => ?_
  refine raisesOnly_bind (skippable_text raw _) fun baseAsset => ?_
  refine raisesOnly_bind (skippable_text raw _) fun quoteAsset => ?_
  refine raisesOnly_bind (skippable_int raw _) fun pricePrecision => ?_
  refine raisesOnly_bind (skippable_int raw _) fun quantityPrecision => ?_
  refine raisesOnly_bind (skippable_extractFilters _ name) fun filters => ?_
  refine raisesOnly_bind (raises_optionalTimestamp raw _) fun onboardDate => ?_
  exact raisesOnly_bind (raises_optionalTimestamp raw _) fun deliveryDate => skippable_validated _

/-- What each field of a ticker is read as. -/
structure Reads (raw : Payload) (book : Json) (t : TickerFields Number) : Prop where
  symbol : requireStr raw "symbol" = .ok t.symbol
  bidPrice : bookDecimal book "bidPrice" = .ok t.bidPrice
  askPrice : bookDecimal book "askPrice" = .ok t.askPrice
  lastPrice : decimalFromJson (field raw "lastPrice") "lastPrice" = .ok t.lastPrice
  high24h : optionalDecimal raw "highPrice" = .ok t.high24h
  low24h : optionalDecimal raw "lowPrice" = .ok t.low24h
  open24h : optionalDecimal raw "openPrice" = .ok t.open24h
  volume24h : optionalDecimal raw "volume" = .ok t.volume24h
  quoteVolume24h : optionalDecimal raw "quoteVolume" = .ok t.quoteVolume24h
  priceChange24h : optionalDecimal raw "priceChange" = .ok t.priceChange24h
  priceChangePercent24h : optionalDecimal raw "priceChangePercent" = .ok t.priceChangePercent24h
  eventTime : eventTimeOf raw = .ok t.eventTime

/-- A kind of error that every unreadable field raises leaves the model itself
to be considered. -/
theorem raisesOnly_parseTicker_iff {kind : ParseError → Prop} (hkind : ∀ e, IsInvalidResponse e → kind e)
    (raw : Payload) (book : Json) :
    RaisesOnly kind (parseTicker (.dict raw) book) ↔
      ∀ t, Reads raw book t → RaisesOnly kind (validated (Ticker.validate t)) := by
  have hdecimal (value : Json) (name : String) := (raises_decimalFromJson value name).mono hkind
  have hoptional (key : String) := (raises_optionalDecimal raw key).mono hkind
  have hbook (key : String) := (raises_bookDecimal book key).mono hkind
  constructor
  · intro h t ht
    rw [parseTicker, ht.symbol, ht.bidPrice, ht.askPrice, ht.lastPrice, ht.high24h, ht.low24h, ht.open24h, ht.volume24h,
      ht.quoteVolume24h, ht.priceChange24h, ht.priceChangePercent24h, ht.eventTime] at h
    exact h
  · intro h
    refine (raisesOnly_bind_iff ((raises_requireStr raw _).mono hkind)).mpr fun symbol hsymbol => ?_
    refine (raisesOnly_bind_iff (hbook _)).mpr fun bidPrice hbid => ?_
    refine (raisesOnly_bind_iff (hbook _)).mpr fun askPrice hask => ?_
    refine (raisesOnly_bind_iff (hdecimal _ _)).mpr fun lastPrice hlast => ?_
    refine (raisesOnly_bind_iff (hoptional _)).mpr fun high24h hhigh => ?_
    refine (raisesOnly_bind_iff (hoptional _)).mpr fun low24h hlow => ?_
    refine (raisesOnly_bind_iff (hoptional _)).mpr fun open24h hopen => ?_
    refine (raisesOnly_bind_iff (hoptional _)).mpr fun volume24h hvolume => ?_
    refine (raisesOnly_bind_iff (hoptional _)).mpr fun quoteVolume24h hquote => ?_
    refine (raisesOnly_bind_iff (hoptional _)).mpr fun priceChange24h hchange => ?_
    refine (raisesOnly_bind_iff (hoptional _)).mpr fun priceChangePercent24h hpercent => ?_
    obtain ⟨eventTime, htime⟩ := eventTimeOf_ok raw
    rw [htime]
    exact h ⟨symbol, lastPrice, bidPrice, askPrice, high24h, low24h, open24h, volume24h, quoteVolume24h, priceChange24h,
      priceChangePercent24h, eventTime⟩
      ⟨hsymbol, hbid, hask, hlast, hhigh, hlow, hopen, hvolume, hquote, hchange, hpercent, htime⟩

theorem skippable_parseTicker (raw book : Json) : RaisesOnly Skippable (parseTicker raw book) := by
  cases raw with
  | dict raw => exact (raisesOnly_parseTicker_iff (fun _ => .inl) raw book).mpr fun t _ => skippable_validated _
  | _ => exact skippable_fail

theorem raises_invalidAs {α : Type} {x : Parsed α} (h : RaisesOnly Skippable x) (message : String) :
    RaisesOnly IsInvalidResponse (invalidAs message x) := by
  cases x with
  | ok a => exact raisesOnly_ok a
  | error e =>
      cases e with
      | invalidResponse message details => exact raisesOnly_error.mpr trivial
      | validationError e => exact raisesOnly_fail
      | invalidMoney message => exact absurd (raisesOnly_error.mp h) (not_skippable_invalidMoney message)

theorem skippable_millis (value : Json) (name : String) : RaisesOnly Skippable (timestampFromMillis value name) :=
  skippable_of_oneWay (raises_timestampFromMillis value name)

theorem raises_parseCandle (row : Json) : RaisesOnly IsInvalidResponse (parseCandle row) := by
  rw [parseCandle.eq_def]
  split
  · refine raises_invalidAs ?_ _
    refine raisesOnly_bind (skippable_millis _ _) fun openTime => ?_
    refine raisesOnly_bind (skippable_millis _ _) fun closeTime => ?_
    refine raisesOnly_bind (skippable_decimal _ _) fun open_ => ?_
    refine raisesOnly_bind (skippable_decimal _ _) fun high => ?_
    refine raisesOnly_bind (skippable_decimal _ _) fun low => ?_
    refine raisesOnly_bind (skippable_decimal _ _) fun close => ?_
    refine raisesOnly_bind (skippable_decimal _ _) fun volume => ?_
    exact raisesOnly_bind (skippable_decimal _ _) fun quoteVolume => skippable_validated _
  · exact raisesOnly_fail

end Rows

/-! ### Lists of rows -/

section Lists

variable {α : Type} {parse : Payload → Parsed α} {rows rows' : List Json}

/-- The model of a row, if there is one. -/
def row (parse : Payload → Parsed α) : Json → Option α
  | .dict entry => (parse entry).toOption
  | _ => none

/-- The same rows with malformed ones put in and taken out. -/
inductive Padded (parse : Payload → Parsed α) (rows : List Json) : List Json → Prop
  | refl : Padded parse rows rows
  | insert (before after : List Json) (bad : Json) (malformed : row parse bad = none)
      (padded : Padded parse rows (before ++ after)) : Padded parse rows (before ++ bad :: after)
  | remove (before after : List Json) (bad : Json) (malformed : row parse bad = none)
      (padded : Padded parse rows (before ++ bad :: after)) : Padded parse rows (before ++ after)

theorem filterMap_row_insert (before after : List Json) {bad : Json} (h : row parse bad = none) :
    (before ++ bad :: after).filterMap (row parse) = (before ++ after).filterMap (row parse) := by
  rw [List.filterMap_append, List.filterMap_cons_none h, List.filterMap_append]

theorem Padded.filterMap_eq (h : Padded parse rows rows') : rows'.filterMap (row parse) = rows.filterMap (row parse) := by
  induction h with
  | refl => rfl
  | insert before after bad hbad _ ih => exact (filterMap_row_insert before after hbad).trans ih
  | remove before after bad hbad _ ih => exact (filterMap_row_insert before after hbad).symm.trans ih

theorem collect_eq (h : ∀ entry, RaisesOnly Skippable (parse entry)) (rows : List Json) (parsed : List α) :
    collect parse rows parsed = .ok (parsed ++ rows.filterMap (row parse)) := by
  induction rows generalizing parsed with
  | nil => rw [collect, List.filterMap_nil, List.append_nil]
  | cons entry rest ih =>
      cases entry with
      | dict entry =>
          have hraises := h entry
          rw [collect]
          cases hentry : parse entry with
          | ok model =>
              have hrow : row parse (.dict entry) = some model := by rw [row, hentry]; rfl
              rw [List.filterMap_cons_some hrow]
              simpa using ih (parsed ++ [model])
          | error e =>
              have hrow : row parse (.dict entry) = none := by rw [row, hentry]; rfl
              rw [List.filterMap_cons_none hrow]
              rw [hentry] at hraises
              cases e with
              | invalidResponse message details => exact ih parsed
              | validationError e => exact ih parsed
              | invalidMoney message => exact absurd (raisesOnly_error.mp hraises) (not_skippable_invalidMoney message)
      | _ =>
          rw [List.filterMap_cons_none rfl]
          exact ih parsed

theorem filterMap_row_ne_nil (h : ∃ r ∈ rows, (row parse r).isSome) : rows.filterMap (row parse) ≠ [] := by
  obtain ⟨r, hr, hsome⟩ := h
  obtain ⟨model, hmodel⟩ := Option.isSome_iff_exists.mp hsome
  exact List.ne_nil_of_mem (List.mem_filterMap.mpr ⟨r, hr, hmodel⟩)

end Lists

section Parsers

variable [Platform]

theorem skippable_tickerEntry (books : Dict String Payload) (entry : Payload) :
    RaisesOnly Skippable (tickerEntry books entry) :=
  skippable_parseTicker _ _

theorem parseTickerList_list (rows : List Json) (book : Json) :
    parseTickerList (.list rows) book =
      if rows ≠ [] ∧ rows.filterMap (row (tickerEntry (booksBySymbol book))) = [] then
        fail "no ticker in the snapshot could be parsed" [("tickers_received", .int rows.length)]
      else .ok (rows.filterMap (row (tickerEntry (booksBySymbol book)))) := by
  rw [parseTickerList, collect_eq (skippable_tickerEntry _), List.nil_append]
  rfl

theorem parseTickerList_padded {rows rows' : List Json} {book : Json}
    (h : Padded (tickerEntry (booksBySymbol book)) rows rows')
    (hsome : ∃ r ∈ rows, (row (tickerEntry (booksBySymbol book)) r).isSome) :
    parseTickerList (.list rows') book = parseTickerList (.list rows) book := by
  rw [parseTickerList_list, parseTickerList_list, h.filterMap_eq, if_neg, if_neg]
  · exact fun hempty => filterMap_row_ne_nil hsome hempty.2
  · exact fun hempty => filterMap_row_ne_nil hsome hempty.2

theorem raises_parseTickerList (raw book : Json) : RaisesOnly IsInvalidResponse (parseTickerList raw book) := by
  cases raw with
  | list rows =>
      rw [parseTickerList_list]
      split
      · exact raisesOnly_fail
      · exact raisesOnly_ok _
  | _ => exact raisesOnly_fail

/-- The snapshot of a document whose symbols are these. -/
def snapshot (payload : Payload) (symbols : List Symbol) : Parsed ExchangeInfo := do
  let serverTime ← serverTimeOf payload
  return { exchange := "binance-futures-usdm", serverTime := serverTime, symbols := symbols }

theorem parseExchangeInfo_list {payload : Payload} {rows : List Json} (h : field payload "symbols" = .list rows) :
    parseExchangeInfo (.dict payload) =
      if rows ≠ [] ∧ rows.filterMap (row parseSymbol) = [] then
        fail "no symbol in the exchangeInfo response could be parsed" [("symbols_received", .int rows.length)]
      else snapshot payload (rows.filterMap (row parseSymbol)) := by
  rw [parseExchangeInfo, h]
  dsimp only
  rw [collect_eq skippable_parseSymbol, List.nil_append]
  rfl

theorem raises_snapshot (payload : Payload) (symbols : List Symbol) :
    RaisesOnly IsInvalidResponse (snapshot payload symbols) := by
  have htime : RaisesOnly IsInvalidResponse (serverTimeOf payload) := by
    rw [serverTimeOf]
    split
    · exact raisesOnly_map (raises_timestampFromMillis _ _)
    · exact raisesOnly_ok none
  exact raisesOnly_bind htime fun serverTime => raisesOnly_ok _

theorem raises_parseExchangeInfo (raw : Json) : RaisesOnly IsInvalidResponse (parseExchangeInfo raw) := by
  cases raw with
  | dict payload =>
      cases hsymbols : field payload "symbols" with
      | list rows =>
          rw [parseExchangeInfo_list hsymbols]
          split
          · exact raisesOnly_fail
          · exact raises_snapshot payload _
      | _ =>
          rw [parseExchangeInfo, hsymbols]
          exact raisesOnly_fail
  | _ => exact raisesOnly_fail

theorem parseExchangeInfo_padded {payload payload' : Payload} {rows rows' : List Json}
    (hrows : field payload "symbols" = .list rows) (hrows' : field payload' "symbols" = .list rows')
    (htime : field payload "serverTime" = field payload' "serverTime") (h : Padded parseSymbol rows rows')
    (hsome : ∃ r ∈ rows, (row parseSymbol r).isSome) :
    parseExchangeInfo (.dict payload') = parseExchangeInfo (.dict payload) := by
  rw [parseExchangeInfo_list hrows, parseExchangeInfo_list hrows', h.filterMap_eq, if_neg, if_neg, snapshot, snapshot,
    serverTimeOf, serverTimeOf, htime]
  · exact fun hempty => filterMap_row_ne_nil hsome hempty.2
  · exact fun hempty => filterMap_row_ne_nil hsome hempty.2

theorem raises_parseKlines (raw : Json) (symbol : String) (timeframe : Timeframe) :
    RaisesOnly IsInvalidResponse (parseKlines raw symbol timeframe) := by
  cases raw with
  | list rows =>
      refine raisesOnly_bind (raisesOnly_mapM raises_parseCandle rows) fun candles => ?_
      exact raises_invalidAs (skippable_validated _) _
  | _ => exact raisesOnly_fail

omit [Platform] in
theorem raises_validatedTicker (t : TickerFields Number) :
    RaisesOnly IsInvalidResponse (validated (Ticker.validate t)) ↔ ∀ x ∈ t.numbers, (finite? x).isSome := by
  rw [← t.finite_isSome, Ticker.validate]
  cases t.finite with
  | none => exact ⟨fun h => False.elim (raisesOnly_error.mp h), fun h => nomatch h⟩
  | some ticker => exact ⟨fun _ => rfl, fun _ => raisesOnly_ok ticker⟩

/-- Where every field of a ticker can be read, every number read is finite. -/
def NumbersFinite (raw book : Json) : Prop :=
  ∀ payload t, raw = .dict payload → Reads payload book t → ∀ x ∈ t.numbers, (finite? x).isSome

theorem raises_parseTicker_iff (raw book : Json) :
    RaisesOnly IsInvalidResponse (parseTicker raw book) ↔ NumbersFinite raw book := by
  constructor
  · rintro h payload t rfl hreads
    exact (raises_validatedTicker t).mp ((raisesOnly_parseTicker_iff (fun _ => id) payload book).mp h t hreads)
  · intro h
    cases raw with
    | dict payload =>
        refine (raisesOnly_parseTicker_iff (fun _ => id) payload book).mpr fun t hreads => ?_
        exact (raises_validatedTicker t).mpr (h payload t rfl hreads)
    | _ => exact raisesOnly_fail

/-- The four parsers on one document: a model, which carries what its
validators require, or one class of error; and malformed rows of a list change
nothing while a row is left. -/
structure FailsOneWay (raw book : Json) (symbol : String) (timeframe : Timeframe) : Prop where
  ticker : RaisesOnly IsInvalidResponse (parseTicker raw book)
  tickerList : RaisesOnly IsInvalidResponse (parseTickerList raw book)
  klines : RaisesOnly IsInvalidResponse (parseKlines raw symbol timeframe)
  exchangeInfo : RaisesOnly IsInvalidResponse (parseExchangeInfo raw)
  tickerRows : ∀ rows rows', raw = .list rows → Padded (tickerEntry (booksBySymbol book)) rows rows' →
    (∃ r ∈ rows, (row (tickerEntry (booksBySymbol book)) r).isSome) →
      parseTickerList (.list rows') book = parseTickerList raw book
  symbolRows : ∀ payload payload' rows rows', raw = .dict payload → field payload "symbols" = .list rows →
    field payload' "symbols" = .list rows' → field payload "serverTime" = field payload' "serverTime" →
      Padded parseSymbol rows rows' → (∃ r ∈ rows, (row parseSymbol r).isSome) →
        parseExchangeInfo (.dict payload') = parseExchangeInfo raw

/-- The single ticker is the one parser that lets another error through: the
validation error of a number that is not finite. -/
theorem failsOneWay_iff (raw book : Json) (symbol : String) (timeframe : Timeframe) :
    FailsOneWay raw book symbol timeframe ↔ NumbersFinite raw book := by
  constructor
  · intro h
    exact (raises_parseTicker_iff raw book).mp h.ticker
  · intro h
    refine ⟨(raises_parseTicker_iff raw book).mpr h, raises_parseTickerList raw book,
      raises_parseKlines raw symbol timeframe, raises_parseExchangeInfo raw, ?_, ?_⟩
    · rintro rows rows' rfl hpadded hsome
      exact parseTickerList_padded hpadded hsome
    · rintro payload payload' rows rows' rfl hrows hrows' htime hpadded hsome
      exact parseExchangeInfo_padded hrows hrows' htime hpadded hsome

end Parsers

/-- Times without rounding, and validation errors shown by their titles. -/
@[reducible] def referencePlatform : Platform :=
  { referenceInterpreter with
    fromtimestamp := fun millis => some (millis * 1000)
    describe := ValidationError.title }

/-- A ticker whose last price is not a number. -/
def notPriced : Payload := [("symbol", .text "BTCUSDT"), ("lastPrice", .text "NaN")]

def notPricedFields : TickerFields Number :=
  ⟨"BTCUSDT", .nan, none, none, none, none, none, none, none, none, none, none⟩

theorem reads_notPriced : @Reads referencePlatform notPriced .null notPricedFields :=
  @Reads.mk referencePlatform notPriced .null notPricedFields rfl rfl rfl rfl rfl rfl rfl rfl rfl rfl rfl rfl

theorem notPriced_fails_another_way : ¬ @FailsOneWay referencePlatform (.dict notPriced) .null "BTCUSDT" .h1 := by
  intro h
  have hfinite := (@raises_parseTicker_iff referencePlatform (.dict notPriced) .null).mp
    (@FailsOneWay.ticker referencePlatform _ _ _ _ h)
  have hnan := hfinite notPriced notPricedFields rfl reads_notPriced .nan (List.mem_cons_self ..)
  exact absurd hnan (by decide)

end Aetheris.ParserErrors
