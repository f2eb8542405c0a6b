import Aetheris.Lib.Separated
import Aetheris.MarketData
import Aetheris.ParserErrors

namespace Aetheris.MarketDataRuns

open Lib Coroutine Separated Money Clock PaperRecords MarketModels MarketParsing MarketCache OrderIdentity Signing MarketData
open Enums (DataStatus)
open Scanner (Observation)
open ExchangeHttp (ExchangeError)
open VenueAnswers (Json)

inductive Outcome
  | success
  | failure (errorCode : String)
  deriving DecidableEq

/-- The adapter's own state, both clocks, and every outcome that was recorded. -/
structure MarketWorld where
  caches : Caches
  tracker : ConnectionTracker := {}
  universeUpdatedAt : Option Timestamp := none
  monotonic : Decimal
  wall : Timestamp
  outcomes : List Outcome := []

def opened (settings : MarketSettings) (monotonic : Decimal) (wall : Timestamp) : MarketWorld where
  caches := .new settings
  monotonic := monotonic
  wall := wall

/-- What the venue may answer to a request, and when. -/
abbrev Upstream := Decimal → String → Query → Except ExchangeError Json → Prop

/-- What an effect answers and does, by the clocks of the world. -/
def Does (upstream : Upstream) : {β : Type} → MarketEffect β → MarketWorld → Except Failure β → MarketWorld → Prop
  | _, .getJson path params, w, r, w' =>
      w' = w ∧ ∃ answer, upstream w.monotonic path params answer ∧ r = answer.mapError .exchange
  | _, .firstDone, w, r, w' => w' = w ∧ ∃ first, r = .ok first
  | _, .cached slot key, w, r, w' =>
      let (found, cache) := (w.caches.select slot).get key w.monotonic
      r = .ok found ∧ w' = { w with caches := w.caches.put slot cache }
  | _, .store slot key value, w, r, w' =>
      r = .ok () ∧ w' = { w with caches := w.caches.put slot ((w.caches.select slot).set key value w.monotonic) }
  | _, .recordSuccess, w, r, w' =>
      r = .ok () ∧ w' = { w with tracker := w.tracker.recordSuccess w.wall, outcomes := w.outcomes ++ [.success] }
  | _, .recordFailure code, w, r, w' =>
      r = .ok () ∧
        w' = { w with tracker := w.tracker.recordFailure code w.wall, outcomes := w.outcomes ++ [.failure code] }
  | _, .universeUpdated, w, r, w' => r = .ok () ∧ w' = { w with universeUpdatedAt := some w.wall }
  | _, .tracked, w, r, w' => w' = w ∧ r = .ok (w.tracker, w.universeUpdatedAt)
  | _, .monotonic, w, r, w' => w' = w ∧ r = .ok w.monotonic
  | _, .utcnow, w, r, w' => w' = w ∧ r = .ok w.wall

/-- Time passes before anything is done, and neither clock goes back. -/
def exec (upstream : Upstream) : Semantics MarketEffect Failure MarketWorld
  | _, f, w, r, w' => ∃ monotonic wall, w.monotonic ≤ monotonic ∧ w.wall ≤ wall ∧
      Does upstream f { w with monotonic := monotonic, wall := wall } r w'

inductive Call
  | getExchangeInfo
  | getSymbols (eligibleOnly : Bool)
  | getTicker (symbol : String)
  | getAllTickers
  | getKlines (symbol : String) (timeframe : Timeframe) (limit : Int)
  | getMarketStatus

inductive Answer
  | info (info : ExchangeInfo)
  | symbols (symbols : List Symbol)
  | ticker (observation : Observation Ticker)
  | tickers (observation : Observation (List Ticker))
  | klines (observation : Observation CandleSeries)
  | status (status : MarketDataStatus)

/-- A call, what the clocks read when it was made, and what came of it. -/
structure Served where
  call : Call
  since : Decimal
  asOf : Timestamp
  answer : Except Failure Answer

section

variable [Runtime] [Platform] (settings : MarketSettings)

def Call.body : Call → MarketM Answer
  | getExchangeInfo => return .info (← MarketData.getExchangeInfo)
  | getSymbols eligibleOnly => return .symbols (← MarketData.getSymbols eligibleOnly)
  | getTicker symbol => return .ticker (← MarketData.getTicker settings symbol)
  | getAllTickers => return .tickers (← MarketData.getAllTickers settings)
  | getKlines symbol timeframe limit => return .klines (← MarketData.getKlines settings symbol timeframe limit)
  | getMarketStatus => return .status (← MarketData.getMarketStatus)

def Call.serve (call : Call) : MarketM Served := do
  let since ← perform .monotonic
  let asOf ← perform .utcnow
  let answer ← (call.body settings).caught
  return ⟨call, since, asOf, answer⟩

def Calls (c : MarketM Served) : Prop := ∃ call : Call, c = call.serve settings

end

/-! ### Where an answer comes from -/

section Provenance

variable (upstream : Upstream)

/-- The venue gave it, no later than this. -/
def Heard (path : String) (params : Query) (payload : Json) (s : Decimal) : Prop :=
  ∃ t ≤ s, upstream t path params (.ok payload)

/-- What came of a request between these times. -/
def Got (path : String) (params : Query) (r : Except Failure Json) (lo hi : Decimal) : Prop :=
  ∃ t, lo ≤ t ∧ t ≤ hi ∧ ∃ answer, upstream t path params answer ∧ r = answer.mapError .exchange

/-- The best bid and ask as far as they were answered, or nothing. -/
def BookRead (params : Query) (book : Json) (s : Decimal) : Prop :=
  ∃ t ≤ s, ∃ answer, upstream t bookTicker params answer ∧ book = bookOf (answer.mapError .exchange)

variable [Platform]

def InfoHeard (info : ExchangeInfo) (s : Decimal) : Prop :=
  ∃ payload, Heard upstream exchangeInfoPath [] payload s ∧ parseExchangeInfo payload = .ok info

def tickerParams (symbol : String) : Query := [("symbol", .text symbol)]

def TickerHeard (symbol : String) (ticker : Ticker) (s : Decimal) : Prop :=
  ∃ stats book, Heard upstream ticker24h (tickerParams symbol) stats s ∧ BookRead upstream (tickerParams symbol) book s ∧
    parseTicker stats book = .ok ticker

def TickersHeard (tickers : List Ticker) (s : Decimal) : Prop :=
  ∃ stats book, Heard upstream ticker24h [] stats s ∧ BookRead upstream [] book s ∧ parseTickerList stats book = .ok tickers

def KlinesHeard (symbol : String) (timeframe : Timeframe) (bounded : Nat) (series : CandleSeries) (s : Decimal) : Prop :=
  ∃ payload, Heard upstream klinesPath (klinesParams symbol timeframe bounded) payload s ∧
    parseKlines payload symbol timeframe = .ok series

/-- What a cache holds under a key was heard in answer to the request that the key stands for. -/
def Sourced : {V : Type} → Slot V → String → V → Decimal → Prop
  | _, .exchangeInfo, _, info, s => InfoHeard upstream info s
  | _, .ticker, key, ticker, s => ∃ symbol, key = tickerKey symbol ∧ TickerHeard upstream symbol ticker s
  | _, .klines, key, series, s => ∃ symbol timeframe bounded, key = klinesKey symbol timeframe bounded ∧
      KlinesHeard upstream symbol timeframe bounded series s
  | _, .allTickers, _, tickers, s => TickersHeard upstream tickers s

variable {upstream}

omit [Platform] in
theorem Heard.mono {path : String} {params : Query} {payload : Json} {s s' : Decimal}
    (h : Heard upstream path params payload s) (hs : s ≤ s') : Heard upstream path params payload s' := by
  obtain ⟨t, ht, hu⟩ := h
  exact ⟨t, ht.trans hs, hu⟩

omit [Platform] in
theorem BookRead.mono {params : Query} {book : Json} {s s' : Decimal} (h : BookRead upstream params book s)
    (hs : s ≤ s') : BookRead upstream params book s' := by
  obtain ⟨t, ht, hu⟩ := h
  exact ⟨t, ht.trans hs, hu⟩

omit [Platform] in
theorem Got.mono {path : String} {params : Query} {r : Except Failure Json} {lo lo' hi hi' : Decimal}
    (h : Got upstream path params r lo hi) (hlo : lo' ≤ lo) (hhi : hi ≤ hi') : Got upstream path params r lo' hi' := by
  obtain ⟨t, htlo, hthi, hu⟩ := h
  exact ⟨t, hlo.trans htlo, hthi.trans hhi, hu⟩

omit [Platform] in
theorem Got.heard {path : String} {params : Query} {payload : Json} {lo hi : Decimal}
    (h : Got upstream path params (.ok payload) lo hi) : ∃ t, lo ≤ t ∧ t ≤ hi ∧ upstream t path params (.ok payload) := by
  obtain ⟨t, hlo, hhi, answer, hu, hr⟩ := h
  cases answer with
  | ok other =>
      cases hr
      exact ⟨t, hlo, hhi, hu⟩
  | error e => cases hr

end Provenance

/-! ### The keys -/

section Keys

theorem tickerKey_inj {symbol other : String} (h : tickerKey symbol = tickerKey other) : symbol = other := by
  simpa [tickerKey, ← String.toList_inj, toString] using h

theorem value_no_separator (timeframe : Timeframe) : ':' ∉ timeframe.value.toList := by
  cases timeframe <;> decide

theorem value_inj {timeframe other : Timeframe} (h : timeframe.value = other.value) : timeframe = other := by
  cases timeframe <;> cases other <;> first | rfl | exact absurd h (by decide)

theorem limit_toList (n : Nat) : (toString n).toList = Nat.toDigits 10 n := by
  simp [Nat.toString_eq_repr, Nat.repr]

theorem limit_no_separator (n : Nat) : ':' ∉ (toString n).toList := by
  rw [limit_toList]
  exact fun h => absurd (DecimalText.allDigits_toDigits n _ h) (by decide)

theorem limit_inj {n m : Nat} (h : toString n = toString m) : n = m := by
  have hdigits : Nat.toDigits 10 n = Nat.toDigits 10 m := by rw [← limit_toList, ← limit_toList, h]
  rw [← Nat.ofDigitChars_ten_toDigits (n := n), hdigits, Nat.ofDigitChars_ten_toDigits]

theorem klinesKey_toList (symbol : String) (timeframe : Timeframe) (bounded : Nat) :
    (klinesKey symbol timeframe bounded).toList =
      "klines:".toList ++ joined ':' symbol.toList timeframe.value.toList (toString bounded).toList := by
  simp [klinesKey, joined, toString]

/-- A symbol may hold a separator, and still no two requests for bars share a key. -/
theorem klinesKey_inj {symbol other : String} {timeframe timeframe' : Timeframe} {bounded bounded' : Nat}
    (h : klinesKey symbol timeframe bounded = klinesKey other timeframe' bounded') :
    symbol = other ∧ timeframe = timeframe' ∧ bounded = bounded' := by
  have hnot : ∀ {s s' a b : List Char} {n m : Nat}, ¬ Absorbs ':' s a (toString n).toList s' b (toString m).toList := by
    rintro s s' a b n m ⟨tail, _, hk⟩
    cases tail with
    | nil =>
        obtain ⟨_, hk⟩ := List.cons.inj hk
        exact limit_no_separator n (hk ▸ List.mem_append_right _ List.mem_cons_self)
    | cons c tail =>
        obtain ⟨_, hk⟩ := List.cons.inj hk
        exact limit_no_separator n (hk ▸ List.mem_append_right _ List.mem_cons_self)
  have hlist := congrArg String.toList h
  rw [klinesKey_toList, klinesKey_toList, List.append_cancel_left_eq,
    joined_eq_iff (value_no_separator _) (value_no_separator _)] at hlist
  rcases hlist with ⟨hsymbol, hvalue, hlimit⟩ | habsorbs | habsorbs
  · exact ⟨String.toList_inj.mp hsymbol, value_inj (String.toList_inj.mp hvalue), limit_inj (String.toList_inj.mp hlimit)⟩
  · exact absurd habsorbs hnot
  · exact absurd habsorbs hnot

end Keys

/-! ### The caches -/

/-- How long what is stored may be served. -/
def ttl (settings : MarketSettings) : {V : Type} → Slot V → Decimal
  | _, .exchangeInfo => settings.exchangeInfoTtlSeconds
  | _, .ticker => settings.tickerTtlSeconds
  | _, .klines => settings.klinesTtlSeconds
  | _, .allTickers => settings.tickerTtlSeconds

theorem ttl_pos (settings : MarketSettings) {V : Type} (slot : Slot V) : 0 < ttl settings slot := by
  cases slot with
  | exchangeInfo => exact settings.exchangeInfoTtl_pos
  | ticker => exact settings.tickerTtl_pos
  | klines => exact settings.klinesTtl_pos
  | allTickers => exact settings.tickerTtl_pos

section Caches

variable [Platform] {upstream : Upstream} {settings : MarketSettings} {V : Type} {slot : Slot V} {key : String} {s s' now : Decimal}

theorem Sourced.mono {value : V} (h : Sourced upstream slot key value s) (hs : s ≤ s') :
    Sourced upstream slot key value s' := by
  cases slot with
  | exchangeInfo =>
      obtain ⟨payload, hheard, hparse⟩ := h
      exact ⟨payload, hheard.mono hs, hparse⟩
  | ticker =>
      obtain ⟨symbol, hkey, stats, book, hstats, hbook, hparse⟩ := h
      exact ⟨symbol, hkey, stats, book, hstats.mono hs, hbook.mono hs, hparse⟩
  | klines =>
      obtain ⟨symbol, timeframe, bounded, hkey, payload, hheard, hparse⟩ := h
      exact ⟨symbol, timeframe, bounded, hkey, payload, hheard.mono hs, hparse⟩
  | allTickers =>
      obtain ⟨stats, book, hstats, hbook, hparse⟩ := h
      exact ⟨stats, book, hstats.mono hs, hbook.mono hs, hparse⟩

variable (upstream settings) in
/-- Every entry was put there at some time, and had been heard by then. -/
structure Sound (slot : Slot V) (cache : TTLCache V Decimal) (now : Decimal) : Prop where
  ttl : cache.ttl = ttl settings slot
  entries : ∀ key entry, cache.entries.get? key = some entry →
    ∃ s ≤ now, entry.expiresAt = s + MarketDataRuns.ttl settings slot ∧ Sourced upstream slot key entry.value s

theorem Sound.mono {cache : TTLCache V Decimal} (h : Sound upstream settings slot cache now) {later : Decimal}
    (hnow : now ≤ later) : Sound upstream settings slot cache later := by
  refine ⟨h.ttl, fun key entry hentry => ?_⟩
  obtain ⟨s, hs, hrest⟩ := h.entries key entry hentry
  exact ⟨s, hs.trans hnow, hrest⟩

theorem Sound.get {cache : TTLCache V Decimal} (h : Sound upstream settings slot cache now) (key : String) :
    Sound upstream settings slot (cache.get key now).2 now ∧ ∀ value, (cache.get key now).1 = some value →
      ∃ s ≤ now, now < s + MarketDataRuns.ttl settings slot ∧ Sourced upstream slot key value s := by
  rw [TTLCache.get]
  cases hentry : cache.entries.get? key with
  | none => exact ⟨⟨h.ttl, h.entries⟩, fun value hvalue => absurd hvalue.symm (Option.some_ne_none value)⟩
  | some entry =>
      dsimp only
      split
      · refine ⟨⟨h.ttl, fun other found hfound => h.entries other found ?_⟩,
          fun value hvalue => absurd hvalue.symm (Option.some_ne_none value)⟩
        rw [Dict.get?_erase] at hfound
        split at hfound
        · cases hfound
        · exact hfound
      · rename_i hlive
        refine ⟨⟨h.ttl, fun other found hfound => h.entries other found ?_⟩, fun value hvalue => ?_⟩
        · rwa [Dict.get?_moveToEnd] at hfound
        · cases hvalue
          obtain ⟨s, hs, hexpires, hsourced⟩ := h.entries key entry hentry
          exact ⟨s, hs, by rw [← hexpires]; exact not_le.mp hlive, hsourced⟩

theorem Sound.set {cache : TTLCache V Decimal} (h : Sound upstream settings slot cache now) {value : V}
    (hvalue : Sourced upstream slot key value now) : Sound upstream settings slot (cache.set key value now) now := by
  refine ⟨h.ttl, fun other entry hentry => ?_⟩
  have hentry := Dict.get?_of_trim hentry
  rw [Dict.get?_moveToEnd] at hentry
  by_cases hsame : other = key
  · subst hsame
    rw [Dict.get?_set_self] at hentry
    obtain rfl := Option.some.inj hentry
    exact ⟨now, le_rfl, by rw [h.ttl], hvalue⟩
  · rw [Dict.get?_set_of_ne _ _ hsame] at hentry
    exact h.entries other entry hentry

end Caches

/-! ### What an effect keeps -/

section Steps

variable [Platform] (upstream : Upstream) (settings : MarketSettings)

structure Inv (w : MarketWorld) : Prop where
  sound : ∀ {V : Type} (slot : Slot V), Sound upstream settings slot (w.caches.select slot) w.monotonic

/-- A call knows how far the clocks have come. -/
def protocol : Protocol MarketWorld (Decimal × Timestamp) where
  inv := Inv upstream settings
  holds g w := g.1 ≤ w.monotonic ∧ g.2 ≤ w.wall
  apart _ _ := True
  apart_symm _ := trivial

abbrev Runs {α : Type} (c : MarketM α) (g : Decimal × Timestamp)
    (post : Except Failure α → Decimal × Timestamp → Prop) : Prop :=
  (protocol upstream settings).Safe (exec upstream) c g post

variable {upstream settings} {α β : Type} {g : Decimal × Timestamp}

theorem runs_perform {f : MarketEffect β} {post : Except Failure β → Decimal × Timestamp → Prop}
    (h : ∀ w r w', Inv upstream settings w → g ≤ (w.monotonic, w.wall) → Does upstream f w r w' →
      (∀ {V : Type} (slot : Slot V), Sound upstream settings slot (w'.caches.select slot) w.monotonic) ∧
        w'.monotonic = w.monotonic ∧ w'.wall = w.wall ∧ post r (w.monotonic, w.wall)) :
    Runs upstream settings (perform f) g post := by
  refine Protocol.Safe.perform fun w r w' hi hg hx => ?_
  obtain ⟨monotonic, wall, hm, hw, hd⟩ := hx
  have hi' : Inv upstream settings { w with monotonic := monotonic, wall := wall } :=
    ⟨fun slot => (hi.sound slot).mono hm⟩
  obtain ⟨hsound, hmonotonic, hwall, hpost⟩ := h _ r w' hi' ⟨hg.1.trans hm, hg.2.trans hw⟩ hd
  refine ⟨(monotonic, wall), ⟨⟨fun slot => ?_⟩, ⟨hmonotonic.ge, hwall.ge⟩, fun k _ hk => ?_, fun _ _ _ => trivial⟩, hpost⟩
  · rw [hmonotonic]
    exact hsound slot
  · exact ⟨hk.1.trans (hm.trans hmonotonic.ge), hk.2.trans (hw.trans hwall.ge)⟩

theorem runs_bind {c : MarketM α} {k : α → MarketM β} {mid : Except Failure α → Decimal × Timestamp → Prop}
    {post : Except Failure β → Decimal × Timestamp → Prop} (hc : Runs upstream settings c g mid)
    (hok : ∀ a g', mid (.ok a) g' → Runs upstream settings (k a) g' post)
    (herror : ∀ e g', mid (.error e) g' → post (.error e) g') : Runs upstream settings (c >>= k) g post := by
  refine Protocol.Safe.bind (hc.mono fun r g' hr => ?_)
  cases r with
  | ok a => exact hok a g' hr
  | error e => exact herror e g' hr

theorem runs_caught {c : MarketM α} {post : Except Failure α → Decimal × Timestamp → Prop}
    (h : Runs upstream settings c g post) :
    Runs upstream settings c.caught g fun r g' => ∃ x, r = .ok x ∧ post x g' :=
  Protocol.Safe.caught (h.mono fun r _ hr => ⟨r, rfl, hr⟩)

theorem runs_finished {r : Except Failure α} {post : Except Failure α → Decimal × Timestamp → Prop} (h : post r g) :
    Runs upstream settings (finished r) g post := by
  cases r with
  | ok a => exact h
  | error e => exact h

/-- An effect that the caches have no part in. -/
theorem runs_still {f : MarketEffect β} {post : Except Failure β → Decimal × Timestamp → Prop}
    (hstill : ∀ {w r w'}, Does upstream f w r w' → w'.caches = w.caches ∧ w'.monotonic = w.monotonic ∧ w'.wall = w.wall)
    (h : ∀ w r w', g ≤ (w.monotonic, w.wall) → Does upstream f w r w' → post r (w.monotonic, w.wall)) :
    Runs upstream settings (perform f) g post := by
  refine runs_perform fun w r w' hi hg hd => ?_
  obtain ⟨hcaches, hmonotonic, hwall⟩ := hstill hd
  refine ⟨fun slot => ?_, hmonotonic, hwall, h w r w' hg hd⟩
  rw [hcaches]
  exact hi.sound slot

theorem sound_put {V : Type} {slot : Slot V} {cache : TTLCache V Decimal} {w : MarketWorld}
    (hi : Inv upstream settings w) (hcache : Sound upstream settings slot cache w.monotonic) {U : Type} (other : Slot U) :
    Sound upstream settings other ((w.caches.put slot cache).select other) w.monotonic := by
  cases slot with
  | exchangeInfo => cases other with
    | exchangeInfo => exact hcache
    | ticker => exact hi.sound .ticker
    | klines => exact hi.sound .klines
    | allTickers => exact hi.sound .allTickers
  | ticker => cases other with
    | exchangeInfo => exact hi.sound .exchangeInfo
    | ticker => exact hcache
    | klines => exact hi.sound .klines
    | allTickers => exact hi.sound .allTickers
  | klines => cases other with
    | exchangeInfo => exact hi.sound .exchangeInfo
    | ticker => exact hi.sound .ticker
    | klines => exact hcache
    | allTickers => exact hi.sound .allTickers
  | allTickers => cases other with
    | exchangeInfo => exact hi.sound .exchangeInfo
    | ticker => exact hi.sound .ticker
    | klines => exact hi.sound .klines
    | allTickers => exact hcache

/-- What is found was stored no longer ago than it may be served. -/
theorem runs_cached {V : Type} (slot : Slot V) (key : String) :
    Runs upstream settings (perform (.cached slot key)) g fun r g' => g ≤ g' ∧ ∃ found, r = .ok found ∧
      ∀ value, found = some value → ∃ s, g.1 < s + ttl settings slot ∧ Sourced upstream slot key value s := by
  refine runs_perform fun w r w' hi hg ⟨hr, hw'⟩ => ?_
  subst hw'
  obtain ⟨hsound, hfound⟩ := (hi.sound slot).get key
  refine ⟨sound_put hi hsound, rfl, rfl, hg, _, hr, fun value hvalue => ?_⟩
  obtain ⟨s, _, hlive, hsourced⟩ := hfound value hvalue
  exact ⟨s, hg.1.trans_lt hlive, hsourced⟩

theorem runs_store {V : Type} {slot : Slot V} {key : String} {value : V} (h : Sourced upstream slot key value g.1) :
    Runs upstream settings (perform (.store slot key value)) g fun r g' => g ≤ g' ∧ r = .ok () := by
  refine runs_perform fun w r w' hi hg ⟨hr, hw'⟩ => ?_
  subst hw'
  exact ⟨sound_put hi ((hi.sound slot).set (h.mono hg.1)), rfl, rfl, hg, hr⟩

theorem runs_utcnow : Runs upstream settings (perform .utcnow) g fun r g' => g ≤ g' ∧ r = .ok g'.2 := by
  refine runs_still (fun hd => ?_) fun w r w' hg hd => ⟨hg, hd.2⟩
  rw [hd.1]
  exact ⟨rfl, rfl, rfl⟩

/-- A request made now, told to the tracker or not. -/
theorem runs_get (path : String) (params : Query) :
    Runs upstream settings (get path params) g fun r g' => g ≤ g' ∧ Got upstream path params r g.1 g'.1 := by
  have hrecord : ∀ {f : MarketEffect Unit} {h : Decimal × Timestamp}, (∀ {w r w'}, Does upstream f w r w' →
      r = .ok () ∧ w'.caches = w.caches ∧ w'.monotonic = w.monotonic ∧ w'.wall = w.wall) →
      Runs upstream settings (perform f) h fun r h' => h ≤ h' ∧ r = .ok () := fun hf =>
    runs_still (fun hd => (hf hd).2) fun w r w' hg hd => ⟨hg, (hf hd).1⟩
  have hjson : Runs upstream settings (perform (.getJson path params)) g fun r g' =>
      g ≤ g' ∧ ∃ answer, upstream g'.1 path params answer ∧ r = answer.mapError .exchange := by
    refine runs_still (fun hd => ?_) fun w r w' hg hd => ⟨hg, hd.2⟩
    rw [hd.1]
    exact ⟨rfl, rfl, rfl⟩
  refine runs_bind (runs_caught hjson) (fun x g' hx => ?_) (fun e g' hx => nomatch hx)
  obtain ⟨_, hok, hg, answer, hu, hr⟩ := hx
  cases hok
  subst hr
  cases answer with
  | ok payload =>
      refine runs_bind (hrecord fun hd => ⟨hd.1, by rw [hd.2]; exact ⟨rfl, rfl, rfl⟩⟩) (fun _ h' hh => ?_) nofun
      exact ⟨hg.trans hh.1, g'.1, hg.1, hh.1.1, .ok payload, hu, rfl⟩
  | error error =>
      refine runs_bind (hrecord fun hd => ⟨hd.1, by rw [hd.2]; exact ⟨rfl, rfl, rfl⟩⟩) (fun _ h' hh => ?_) nofun
      exact ⟨hg.trans hh.1, g'.1, hg.1, hh.1.1, .error error, hu, rfl⟩

/-- Whichever is done first, both are waited for. -/
theorem runs_gather (path path' : String) (params : Query) :
    Runs upstream settings (gather (get path params) (get path' params)) g fun r g' => g ≤ g' ∧ ∃ x y, r = .ok (x, y) ∧
      Got upstream path params x g.1 g'.1 ∧ Got upstream path' params y g.1 g'.1 := by
  have hfirst : Runs upstream settings (perform .firstDone) g fun r g' => g ≤ g' ∧ ∃ first, r = .ok first := by
    refine runs_still (fun hd => ?_) fun w r w' hg hd => ⟨hg, hd.2⟩
    rw [hd.1]
    exact ⟨rfl, rfl, rfl⟩
  refine runs_bind hfirst (fun first g₁ hx => ?_) (fun e g₁ hx => nomatch hx.2)
  obtain ⟨hg₁, _⟩ := hx
  cases first with
  | true =>
      refine runs_bind (runs_caught (runs_get path params)) (fun x g₂ hx => ?_) (fun e g₂ hx => nomatch hx)
      obtain ⟨_, hok, hg₂, hgot⟩ := hx
      cases hok
      refine runs_bind (runs_caught (runs_get path' params)) (fun y g₃ hy => ?_) (fun e g₃ hy => nomatch hy)
      obtain ⟨_, hok, hg₃, hgot'⟩ := hy
      cases hok
      exact ⟨hg₁.trans (hg₂.trans hg₃), x, y, rfl, hgot.mono hg₁.1 hg₃.1, hgot'.mono (hg₁.trans hg₂).1 le_rfl⟩
  | false =>
      refine runs_bind (runs_caught (runs_get path' params)) (fun y g₂ hy => ?_) (fun e g₂ hy => nomatch hy)
      obtain ⟨_, hok, hg₂, hgot'⟩ := hy
      cases hok
      refine runs_bind (runs_caught (runs_get path params)) (fun x g₃ hx => ?_) (fun e g₃ hx => nomatch hx)
      obtain ⟨_, hok, hg₃, hgot⟩ := hx
      cases hok
      exact ⟨hg₁.trans (hg₂.trans hg₃), x, y, rfl, hgot.mono (hg₁.trans hg₂).1 le_rfl, hgot'.mono hg₁.1 hg₃.1⟩

end Steps

/-! ### What a call serves -/

/-- A failure of a request made since: the venue's own, or of reading its answer. -/
def Failed (upstream : Upstream) (since : Decimal) (path : String) (params : Query) (unread : Json → ParseError → Prop) :
    Failure → Prop
  | .exchange error => ∃ t, since ≤ t ∧ upstream t path params (.error error)
  | .parsing error => ∃ t, since ≤ t ∧ ∃ payload, upstream t path params (.ok payload) ∧ unread payload error
  | .symbolNotFound _ _ => False

section Answers

variable [Runtime] [Platform] (upstream : Upstream) (settings : MarketSettings) (since : Decimal)

/-- Heard, and stored no longer before than it may be served. -/
def Fresh {V : Type} (slot : Slot V) (heard : V → Decimal → Prop) (value : V) : Prop :=
  ∃ s, since < s + ttl settings slot ∧ heard value s

def FreshInfo (info : ExchangeInfo) : Prop := Fresh settings since .exchangeInfo (InfoHeard upstream) info

def InfoFailed : Failure → Prop :=
  Failed upstream since exchangeInfoPath [] fun payload error => parseExchangeInfo payload = .error error

def Listed (symbol : String) : Prop :=
  ∃ info, FreshInfo upstream settings since info ∧ ∃ listed ∈ info.symbols, listed.symbol = symbol

def NotListed (symbol : String) (failure : Failure) : Prop :=
  (∃ message, failure = .symbolNotFound message symbol) ∧
    ∃ info, FreshInfo upstream settings since info ∧ ∀ listed ∈ info.symbols, listed.symbol ≠ symbol

def StatsFailed {α : Type} (params : Query) (parse : Json → Json → Parsed α) : Failure → Prop :=
  Failed upstream since ticker24h params fun stats error => ∃ book, parse stats book = .error error

/-- Served with a value as long as it is young, and as stale, without one, when it is not. -/
def Observed {V : Type} (asOf : Timestamp) (maxAge : Decimal) (value : V) (eventTime : Option Timestamp)
    (observation : Observation V) : Prop :=
  observation.eventTs = eventTime ∧
    (observation.value = some value ∧ (∀ e, eventTime = some e → totalSeconds (asOf - e) ≤ maxAge) ∨
      observation.value = none ∧ observation.status = .stale ∧
        ∃ e now, eventTime = some e ∧ asOf ≤ now ∧ maxAge < max (totalSeconds (now - e)) 0)

end Answers

section Calls

/-- A value of this kind, or a failure of that kind. -/
def Comes {α : Type} (value : α → Prop) (failed : Failure → Prop) : Except Failure α → Prop
  | .ok a => value a
  | .error failure => failed failure

variable [Platform] {upstream : Upstream} {settings : MarketSettings} {g : Decimal × Timestamp} {since : Decimal}
  {failed : Failure → Prop}

abbrev Yields (upstream : Upstream) (settings : MarketSettings) {α : Type} (c : MarketM α) (g : Decimal × Timestamp)
    (value : α → Prop) (failed : Failure → Prop) : Prop :=
  Runs upstream settings c g fun r g' => g ≤ g' ∧ Comes value failed r

theorem Yields.after {α : Type} {c : MarketM α} {value : α → Prop} {g₁ : Decimal × Timestamp} (hg₁ : g ≤ g₁)
    (h : Yields upstream settings c g₁ value failed) :
    Runs upstream settings c g₁ fun r g' => g ≤ g' ∧ Comes value failed r :=
  Protocol.Safe.mono h fun _ _ hr => ⟨hg₁.trans hr.1, hr.2⟩

theorem yields_bind {α β : Type} {c : MarketM α} {k : α → MarketM β} {value : α → Prop} {value' : β → Prop}
    {failed' : Failure → Prop} (hc : Yields upstream settings c g value failed')
    (hok : ∀ a g₁, g ≤ g₁ → value a → Yields upstream settings (k a) g₁ value' failed)
    (herror : ∀ failure, failed' failure → failed failure) : Yields upstream settings (c >>= k) g value' failed := by
  refine runs_bind hc (fun a g₁ ha => ?_) (fun e g₁ he => ⟨he.1, herror e he.2⟩)
  exact (hok a g₁ ha.1 ha.2).after ha.1

theorem Yields.imp {α : Type} {c : MarketM α} {value value' : α → Prop} {failed' : Failure → Prop}
    (h : Yields upstream settings c g value failed') (hvalue : ∀ a, value a → value' a)
    (hfailed : ∀ failure, failed' failure → failed failure) : Yields upstream settings c g value' failed := by
  refine Protocol.Safe.mono h fun r g' hr => ⟨hr.1, ?_⟩
  cases r with
  | ok a => exact hvalue a hr.2
  | error failure => exact hfailed failure hr.2

theorem yields_ret {α : Type} {a : α} {value : α → Prop} (h : value a) :
    Yields upstream settings (return a) g value failed := ⟨le_rfl, h⟩

theorem yields_parsed {α β : Type} {result : Parsed α} {k : α → MarketM β} {value : β → Prop}
    (hok : ∀ a, result = .ok a → Yields upstream settings (k a) g value failed)
    (herror : ∀ e, result = .error e → failed (.parsing e)) :
    Yields upstream settings (parsed result >>= k) g value failed := by
  cases result with
  | ok a => exact hok a rfl
  | error e => exact ⟨le_rfl, herror e rfl⟩

theorem yields_cachedOr {V : Type} {slot : Slot V} {key : String} {fetch : MarketM V} {heard : V → Decimal → Prop}
    (hs : since ≤ g.1) (hkey : ∀ value s, Sourced upstream slot key value s → heard value s)
    (hfetch : ∀ g₁, g ≤ g₁ → Yields upstream settings fetch g₁ (Fresh settings since slot heard) failed) :
    Yields upstream settings (cachedOr (.cached slot key) fetch) g (Fresh settings since slot heard) failed := by
  refine runs_bind (runs_cached slot key) (fun found g₁ hx => ?_) (fun e g₁ hx => nomatch hx.2)
  obtain ⟨hg₁, _, hok, hfound⟩ := hx
  cases hok
  cases found with
  | some value =>
      obtain ⟨s, hlive, hsourced⟩ := hfound value rfl
      exact ⟨hg₁, s, hs.trans_lt hlive, hkey value s hsourced⟩
  | none => exact (hfetch g₁ hg₁).after hg₁

/-- What is read now and stored is as fresh as can be. -/
theorem yields_stored {V : Type} {slot : Slot V} {key : String} {value : V} {heard : V → Decimal → Prop}
    {k : Unit → MarketM V} (hs : since ≤ g.1) (hsourced : Sourced upstream slot key value g.1) (hheard : heard value g.1)
    (hk : ∀ g₁, Yields upstream settings (k ()) g₁ (fun result => result = value) failed) :
    Yields upstream settings (perform (.store slot key value) >>= k) g (Fresh settings since slot heard) failed := by
  refine runs_bind (runs_store hsourced) (fun _ g₁ hx => ?_) (fun e g₁ hx => nomatch hx.2)
  refine (hk g₁).mono fun r g' hr => ⟨hx.1.trans hr.1, ?_⟩
  cases r with
  | ok result =>
      obtain rfl : result = value := hr.2
      exact ⟨g.1, hs.trans_lt (lt_add_of_pos_right _ (ttl_pos settings slot)), hheard⟩
  | error failure => exact hr.2

omit [Platform] in
theorem Got.unanswered {path : String} {params : Query} {failure : Failure} {lo hi : Decimal}
    (h : Got upstream path params (.error failure) lo hi) (hs : since ≤ lo) (unread : Json → ParseError → Prop) :
    Failed upstream since path params unread failure := by
  obtain ⟨t, hlo, _, answer, hu, hr⟩ := h
  cases answer with
  | ok payload => cases hr
  | error error =>
      cases hr
      exact ⟨t, hs.trans hlo, hu⟩

theorem yields_universeUpdated {α : Type} {a : α} :
    Yields upstream settings (perform .universeUpdated >>= fun _ => return a) g (fun result => result = a) failed := by
  have hupdated : Runs upstream settings (perform .universeUpdated) g fun r g' => g ≤ g' ∧ r = .ok () := by
    refine runs_still (fun hd => ?_) fun w r w' hg hd => ⟨hg, hd.1⟩
    rw [hd.2]
    exact ⟨rfl, rfl, rfl⟩
  exact runs_bind hupdated (fun _ g₁ hx => ⟨hx.1, rfl⟩) (fun e g₁ hx => nomatch hx.2)

/-- The answer to a request made now is read, or the failure is of that request. -/
theorem yields_got {α : Type} {path : String} {params : Query} {unread : Json → ParseError → Prop} {k : Json → MarketM α}
    {value : α → Prop} (hs : since ≤ g.1)
    (hk : ∀ payload g₁ t, g ≤ g₁ → since ≤ t → t ≤ g₁.1 → upstream t path params (.ok payload) →
      Yields upstream settings (k payload) g₁ value (Failed upstream since path params unread)) :
    Yields upstream settings (get path params >>= k) g value (Failed upstream since path params unread) := by
  refine runs_bind (runs_get path params) (fun payload g₁ hx => ?_) (fun e g₁ hx => ⟨hx.1, hx.2.unanswered hs _⟩)
  obtain ⟨t, hlo, hhi, hu⟩ := hx.2.heard
  exact (hk payload g₁ t hx.1 (hs.trans hlo) hhi hu).after hx.1

/-- Of two requests at once the first has to be answered, and the second may be. -/
theorem yields_gathered {α : Type} {params : Query} {unread : Json → ParseError → Prop} {k : Json × Json → MarketM α}
    {value : α → Prop} (hs : since ≤ g.1)
    (hk : ∀ stats book g₁ t, g ≤ g₁ → since ≤ t → t ≤ g₁.1 → upstream t ticker24h params (.ok stats) →
      BookRead upstream params book g₁.1 →
      Yields upstream settings (k (stats, book)) g₁ value (Failed upstream since ticker24h params unread)) :
    Yields upstream settings (fetchBoth params >>= k) g value (Failed upstream since ticker24h params unread) := by
  have hboth : Runs upstream settings (fetchBoth params) g fun r g' => g ≤ g' ∧ match r with
      | .ok both => (∃ t, since ≤ t ∧ t ≤ g'.1 ∧ upstream t ticker24h params (.ok both.1)) ∧
          BookRead upstream params both.2 g'.1
      | .error failure => Failed upstream since ticker24h params unread failure := by
    refine runs_bind (runs_gather ticker24h bookTicker params) (fun pair g₁ hx => ?_) (fun e g₁ hx => ?_)
    · obtain ⟨hg₁, stats, book, hok, hstats, t', _, hhi', answer, hu', hbook⟩ := hx
      cases hok
      cases stats with
      | error failure => exact ⟨hg₁, hstats.unanswered hs _⟩
      | ok payload =>
          obtain ⟨t, hlo, hhi, hu⟩ := hstats.heard
          exact ⟨hg₁, ⟨t, hs.trans hlo, hhi, hu⟩, t', hhi', answer, hu', by rw [hbook]⟩
    · obtain ⟨_, _, _, hok, _⟩ := hx
      cases hok
  refine runs_bind hboth (fun both g₁ hx => ?_) (fun e g₁ hx => hx)
  obtain ⟨hg₁, ⟨t, ht, hhi, hu⟩, hread⟩ := hx
  exact (hk both.1 both.2 g₁ t hg₁ ht hhi hu hread).after hg₁

theorem yields_getExchangeInfo (hs : since ≤ g.1) :
    Yields upstream settings getExchangeInfo g (FreshInfo upstream settings since) (InfoFailed upstream since) := by
  refine yields_cachedOr hs (fun _ _ h => h) fun g₁ hg₁ => yields_got (hs.trans hg₁.1) fun payload g₂ t hg₂ ht hhi hu => ?_
  refine yields_parsed (fun info hparse => ?_) fun e hparse => ⟨t, ht, payload, hu, hparse⟩
  have hheard : InfoHeard upstream info g₂.1 := ⟨payload, ⟨t, hhi, hu⟩, hparse⟩
  exact yields_stored (hs.trans (hg₁.trans hg₂).1) hheard hheard fun g₃ => yields_universeUpdated

/-- Nothing is asked of the venue about a symbol that it does not list. -/
theorem yields_resolveSymbol [Runtime] (symbol : String) (hs : since ≤ g.1) :
    Yields upstream settings (resolveSymbol symbol) g
      (fun listed => listed.symbol = Runtime.upper symbol ∧ Listed upstream settings since (Runtime.upper symbol))
      (fun failure => NotListed upstream settings since (Runtime.upper symbol) failure ∨ InfoFailed upstream since failure) := by
  refine yields_bind (yields_getExchangeInfo hs) (fun info g₁ _ hinfo => ?_) fun failure hfailed => .inr hfailed
  cases hfind : info.symbols.find? fun candidate => candidate.symbol = Runtime.upper symbol with
  | some listed =>
      have hname : listed.symbol = Runtime.upper symbol := by simpa using List.find?_some hfind
      exact yields_ret ⟨hname, info, hinfo, listed, List.mem_of_find?_eq_some hfind, hname⟩
  | none =>
      refine ⟨le_rfl, .inl ⟨⟨_, rfl⟩, info, hinfo, fun listed hlisted => ?_⟩⟩
      simpa using List.find?_eq_none.mp hfind listed hlisted

theorem yields_fetchTicker (symbol : String) (hs : since ≤ g.1) :
    Yields upstream settings (fetchTicker symbol) g (Fresh settings since .ticker (TickerHeard upstream symbol))
      (StatsFailed upstream since (tickerParams symbol) parseTicker) := by
  refine yields_gathered hs fun stats book g₁ t hg₁ ht hhi hu hread => ?_
  refine yields_parsed (fun ticker hparse => ?_) fun e hparse => ⟨t, ht, stats, hu, book, hparse⟩
  have hheard : TickerHeard upstream symbol ticker g₁.1 := ⟨stats, book, ⟨t, hhi, hu⟩, hread, hparse⟩
  exact yields_stored (hs.trans hg₁.1) ⟨symbol, rfl, hheard⟩ hheard fun g₂ => yields_ret rfl

theorem yields_fetchAllTickers (hs : since ≤ g.1) :
    Yields upstream settings fetchAllTickers g (Fresh settings since .allTickers (TickersHeard upstream))
      (StatsFailed upstream since [] parseTickerList) := by
  refine yields_gathered hs fun stats book g₁ t hg₁ ht hhi hu hread => ?_
  refine yields_parsed (fun tickers hparse => ?_) fun e hparse => ⟨t, ht, stats, hu, book, hparse⟩
  have hheard : TickersHeard upstream tickers g₁.1 := ⟨stats, book, ⟨t, hhi, hu⟩, hread, hparse⟩
  exact yields_stored (hs.trans hg₁.1) hheard hheard fun g₂ => yields_ret rfl

theorem yields_fetchKlines (symbol : String) (timeframe : Timeframe) (bounded : Nat) (hs : since ≤ g.1) :
    Yields upstream settings (fetchKlines symbol timeframe bounded) g
      (Fresh settings since .klines (KlinesHeard upstream symbol timeframe bounded))
      (Failed upstream since klinesPath (klinesParams symbol timeframe bounded) fun payload error =>
        parseKlines payload symbol timeframe = .error error) := by
  refine yields_got hs fun payload g₁ t hg₁ ht hhi hu => ?_
  refine yields_parsed (fun series hparse => ?_) fun e hparse => ⟨t, ht, payload, hu, hparse⟩
  have hheard : KlinesHeard upstream symbol timeframe bounded series g₁.1 := ⟨payload, ⟨t, hhi, hu⟩, hparse⟩
  exact yields_stored (hs.trans hg₁.1) ⟨symbol, timeframe, bounded, rfl, hheard⟩ hheard fun g₂ => yields_ret rfl

omit [Platform] in
theorem totalSeconds_le {asOf now : Timestamp} (h : asOf ≤ now) (e : Timestamp) :
    totalSeconds (asOf - e) ≤ totalSeconds (now - e) := by
  unfold totalSeconds
  gcongr

/-- The age is by a reading of the wall clock that is no earlier than where the call stands. -/
theorem runs_classify (eventTime : Option Timestamp) :
    Runs upstream settings (classify eventTime) g fun r g' => g ≤ g' ∧ ∃ age, r = .ok age ∧
      (eventTime = none ∧ age = none ∨
        ∃ e now, eventTime = some e ∧ g.2 ≤ now ∧ age = some (max (totalSeconds (now - e)) 0)) := by
  cases eventTime with
  | none => exact ⟨le_rfl, none, rfl, .inl ⟨rfl, rfl⟩⟩
  | some e =>
      refine runs_bind runs_utcnow (fun now g₁ hx => ?_) (fun e g₁ hx => nomatch hx.2)
      obtain ⟨hg₁, hok⟩ := hx
      cases hok
      exact ⟨hg₁, _, rfl, .inr ⟨e, g₁.2, rfl, hg₁.2, rfl⟩⟩

variable {V : Type} {value : V} {asOf : Timestamp} {maxAge : Decimal} {eventTime : Option Timestamp}

theorem yields_observedOk (h : ∀ e, eventTime = some e → totalSeconds (asOf - e) ≤ maxAge) :
    Yields upstream settings (observedOk value eventTime) g (Observed asOf maxAge value eventTime) failed := by
  refine runs_bind runs_utcnow (fun now g₁ hx => ?_) (fun e g₁ hx => nomatch hx.2)
  exact ⟨hx.1, rfl, .inl ⟨rfl, h⟩⟩

theorem yields_observedStale {detail : String} {e now : Timestamp} (he : eventTime = some e) (hnow : asOf ≤ now)
    (hold : maxAge < max (totalSeconds (now - e)) 0) :
    Yields upstream settings (observedStale detail eventTime) g (Observed asOf maxAge value eventTime) failed := by
  refine runs_bind runs_utcnow (fun _ g₁ hx => ?_) (fun e g₁ hx => nomatch hx.2)
  exact ⟨hx.1, rfl, .inr ⟨rfl, rfl, e, now, he, hnow, hold⟩⟩

/-- Which of the two it is depends on the age. -/
theorem yields_aged {detail : String} {e now : Timestamp} (he : eventTime = some e) (hnow : asOf ≤ now) :
    Yields upstream settings
      (if maxAge < max (totalSeconds (now - e)) 0 then observedStale detail eventTime else observedOk value eventTime)
      g (Observed asOf maxAge value eventTime) failed := by
  split
  · rename_i hold
    exact yields_observedStale he hnow hold
  · rename_i hyoung
    refine yields_observedOk fun e' he' => ?_
    cases he.symm.trans he'
    exact (totalSeconds_le hnow e).trans ((le_max_left _ _).trans (not_lt.mp hyoung))

theorem yields_observed {detail : Decimal → String} (hasOf : asOf ≤ g.2) :
    Yields upstream settings (classify eventTime >>= fun
      | none => observedOk value eventTime
      | some age =>
          if maxAge < age then observedStale (detail age) eventTime else observedOk value eventTime)
      g (Observed asOf maxAge value eventTime) failed := by
  refine runs_bind (runs_classify eventTime) (fun age g₁ hx => ?_) (fun e g₁ hx => nomatch hx.2)
  obtain ⟨hg₁, _, hok, hage⟩ := hx
  cases hok
  have hdone : Yields upstream settings (match age with
      | none => observedOk value eventTime
      | some age => if maxAge < age then observedStale (detail age) eventTime else observedOk value eventTime)
      g₁ (Observed asOf maxAge value eventTime) failed := by
    rcases hage with ⟨rfl, rfl⟩ | ⟨e, now, he, hnow, rfl⟩
    · exact yields_observedOk nofun
    · exact yields_aged he (hasOf.trans hnow)
  exact hdone.after hg₁

variable [Runtime]

/-- Where the request of a call that names a symbol went wrong. -/
def Unresolved (upstream : Upstream) (settings : MarketSettings) (since : Decimal) (symbol : String) (failure : Failure) :
    Prop :=
  NotListed upstream settings since (Runtime.upper symbol) failure ∨ InfoFailed upstream since failure

def TickerServed (upstream : Upstream) (settings : MarketSettings) (since : Decimal) (asOf : Timestamp) (symbol : String)
    (observation : Observation Ticker) : Prop :=
  Listed upstream settings since (Runtime.upper symbol) ∧
    ∃ ticker, Fresh settings since .ticker (TickerHeard upstream (Runtime.upper symbol)) ticker ∧
      Observed asOf settings.maxTickerAgeSeconds ticker ticker.eventTime observation

theorem yields_getTicker (symbol : String) (hs : since ≤ g.1) (hasOf : asOf ≤ g.2) :
    Yields upstream settings (getTicker settings symbol) g (TickerServed upstream settings since asOf symbol)
      (fun failure => Unresolved upstream settings since symbol failure ∨
        StatsFailed upstream since (tickerParams (Runtime.upper symbol)) parseTicker failure) := by
  refine yields_bind (yields_resolveSymbol symbol hs) (fun listed g₁ hg₁ hlisted => ?_) fun _ hfailed => .inl hfailed
  obtain ⟨hname, hlisted⟩ := hlisted
  rw [hname]
  have hticker : Yields upstream settings (cachedOr (.cached .ticker (tickerKey (Runtime.upper symbol)))
      (fetchTicker (Runtime.upper symbol))) g₁ (Fresh settings since .ticker (TickerHeard upstream (Runtime.upper symbol)))
      (StatsFailed upstream since (tickerParams (Runtime.upper symbol)) parseTicker) := by
    refine yields_cachedOr (hs.trans hg₁.1) (fun ticker s h => ?_) fun g₂ hg₂ =>
      yields_fetchTicker _ (hs.trans (hg₁.trans hg₂).1)
    obtain ⟨other, hkey, hheard⟩ := h
    rw [tickerKey_inj hkey]
    exact hheard
  refine yields_bind hticker (fun ticker g₂ hg₂ hfresh => ?_) fun _ hfailed => .inr hfailed
  exact (yields_observed (hasOf.trans (hg₁.trans hg₂).2)).imp
    (fun _ hobserved => ⟨hlisted, ticker, hfresh, hobserved⟩) fun _ hfailed => hfailed

def TickersServed (upstream : Upstream) (settings : MarketSettings) (since : Decimal) (asOf : Timestamp)
    (observation : Observation (List Ticker)) : Prop :=
  ∃ tickers, Fresh settings since .allTickers (TickersHeard upstream) tickers ∧
    Observed asOf settings.maxTickerAgeSeconds tickers (newest tickers) observation

omit [Runtime] in
theorem yields_getAllTickers (hs : since ≤ g.1) (hasOf : asOf ≤ g.2) :
    Yields upstream settings (getAllTickers settings) g (TickersServed upstream settings since asOf)
      (StatsFailed upstream since [] parseTickerList) := by
  have htickers : Yields upstream settings (cachedOr (.cached .allTickers allTickersKey) fetchAllTickers) g
      (Fresh settings since .allTickers (TickersHeard upstream)) (StatsFailed upstream since [] parseTickerList) :=
    yields_cachedOr hs (fun _ _ h => h) fun g₁ hg₁ => yields_fetchAllTickers (hs.trans hg₁.1)
  refine yields_bind htickers (fun tickers g₁ hg₁ hfresh => ?_) fun _ hfailed => hfailed
  exact (yields_observed (hasOf.trans hg₁.2)).imp (fun _ hobserved => ⟨tickers, hfresh, hobserved⟩)
    fun _ hfailed => hfailed

def KlinesServed (upstream : Upstream) (settings : MarketSettings) (since : Decimal) (asOf : Timestamp) (symbol : String)
    (timeframe : Timeframe) (limit : Int) (observation : Observation CandleSeries) : Prop :=
  Listed upstream settings since (Runtime.upper symbol) ∧
    ∃ series, Fresh settings since .klines
        (KlinesHeard upstream (Runtime.upper symbol) timeframe (boundedLimit settings limit)) series ∧
      Observed asOf (maxCandleAge settings timeframe) series (series.candles.getLast?.map fun last => last.closeTime)
        observation

theorem yields_getKlines (symbol : String) (timeframe : Timeframe) (limit : Int) (hs : since ≤ g.1) (hasOf : asOf ≤ g.2) :
    Yields upstream settings (getKlines settings symbol timeframe limit) g
      (KlinesServed upstream settings since asOf symbol timeframe limit)
      (fun failure => Unresolved upstream settings since symbol failure ∨
        Failed upstream since klinesPath (klinesParams (Runtime.upper symbol) timeframe (boundedLimit settings limit))
          (fun payload error => parseKlines payload (Runtime.upper symbol) timeframe = .error error) failure) := by
  refine yields_bind (yields_resolveSymbol symbol hs) (fun listed g₁ hg₁ hlisted => ?_) fun _ hfailed => .inl hfailed
  obtain ⟨hname, hlisted⟩ := hlisted
  rw [hname]
  have hseries : Yields upstream settings
      (cachedOr (.cached .klines (klinesKey (Runtime.upper symbol) timeframe (boundedLimit settings limit)))
        (fetchKlines (Runtime.upper symbol) timeframe (boundedLimit settings limit))) g₁
      (Fresh settings since .klines (KlinesHeard upstream (Runtime.upper symbol) timeframe (boundedLimit settings limit)))
      (Failed upstream since klinesPath (klinesParams (Runtime.upper symbol) timeframe (boundedLimit settings limit))
        fun payload error => parseKlines payload (Runtime.upper symbol) timeframe = .error error) := by
    refine yields_cachedOr (hs.trans hg₁.1) (fun series s h => ?_) fun g₂ hg₂ =>
      yields_fetchKlines _ _ _ (hs.trans (hg₁.trans hg₂).1)
    obtain ⟨_, _, _, hkey, hheard⟩ := h
    obtain ⟨rfl, rfl, rfl⟩ := klinesKey_inj hkey
    exact hheard
  refine yields_bind hseries (fun series g₂ hg₂ hfresh => ?_) fun _ hfailed => .inr hfailed
  have hasOf₂ : asOf ≤ g₂.2 := hasOf.trans (hg₁.trans hg₂).2
  cases hlast : series.candles.getLast? with
  | none =>
      have hserved : ∀ observation, Observed asOf (maxCandleAge settings timeframe) series none observation →
          KlinesServed upstream settings since asOf symbol timeframe limit observation :=
        fun _ hobserved => ⟨hlisted, series, hfresh, by rw [hlast]; exact hobserved⟩
      have hyoung : ∀ e, none = some e → totalSeconds (asOf - e) ≤ maxCandleAge settings timeframe := nofun
      exact (yields_observedOk hyoung).imp hserved fun _ hfailed => hfailed
  | some last =>
      have hserved : ∀ observation, Observed asOf (maxCandleAge settings timeframe) series (some last.closeTime) observation →
          KlinesServed upstream settings since asOf symbol timeframe limit observation :=
        fun _ hobserved => ⟨hlisted, series, hfresh, by rw [hlast]; exact hobserved⟩
      refine runs_bind (runs_classify (some last.closeTime)) (fun age g₃ hx => ?_) (fun e g₃ hx => nomatch hx.2)
      obtain ⟨hg₃, _, hok, ⟨hnone, _⟩ | ⟨e, now, he, hnow, rfl⟩⟩ := hx
      · cases hnone
      · cases hok
        exact Yields.after hg₃ (Yields.imp (yields_aged he (hasOf₂.trans hnow)) hserved fun _ hfailed => hfailed)

omit [Runtime] in
theorem yields_getSymbols (eligibleOnly : Bool) (hs : since ≤ g.1) :
    Yields upstream settings (getSymbols eligibleOnly) g
      (fun symbols => ∃ info, FreshInfo upstream settings since info ∧
        symbols = if eligibleOnly then info.symbols.filter isEligible else info.symbols)
      (InfoFailed upstream since) :=
  yields_bind (yields_getExchangeInfo hs) (fun info _ _ hinfo => yields_ret ⟨info, hinfo, rfl⟩) fun _ hfailed => hfailed

/-- The universe is counted where it is known, and nothing is asked of the venue. -/
def StatusServed (upstream : Upstream) (settings : MarketSettings) (since : Decimal) (status : MarketDataStatus) : Prop :=
  ∃ known : Option ExchangeInfo, (∀ info ∈ known, FreshInfo upstream settings since info) ∧
    status.symbolsDiscovered = known.map (fun info => info.symbols.length) ∧
    status.eligibleSymbols = known.map fun info => (info.symbols.filter isEligible).length

omit [Runtime] in
theorem yields_getMarketStatus (hs : since ≤ g.1) :
    Yields upstream settings getMarketStatus g (StatusServed upstream settings since) failed := by
  refine runs_bind (runs_cached .exchangeInfo exchangeInfoKey) (fun known g₁ hx => ?_) (fun e g₁ hx => nomatch hx.2)
  obtain ⟨hg₁, _, hok, hknown⟩ := hx
  cases hok
  have hfresh : ∀ info ∈ known, FreshInfo upstream settings since info := by
    intro info hinfo
    obtain ⟨s, hlive, hheard⟩ := hknown info hinfo
    exact ⟨s, hs.trans_lt hlive, hheard⟩
  have htracked : Runs upstream settings (perform .tracked) g₁ fun r g' => g₁ ≤ g' ∧ ∃ told, r = .ok told := by
    refine runs_still (fun hd => ?_) fun w r w' hg hd => ⟨hg, _, hd.2⟩
    rw [hd.1]
    exact ⟨rfl, rfl, rfl⟩
  have hage : ∀ lastSuccess g₂, Runs upstream settings (ageOf lastSuccess) g₂ fun r g' => g₂ ≤ g' ∧ ∃ age, r = .ok age := by
    intro lastSuccess g₂
    cases lastSuccess with
    | none => exact ⟨le_rfl, none, rfl⟩
    | some lastSuccess =>
        refine runs_bind runs_utcnow (fun now g₃ hx => ?_) (fun e g₃ hx => nomatch hx.2)
        exact ⟨hx.1, _, rfl⟩
  refine runs_bind htracked (fun told g₂ hx => ?_) (fun e g₂ hx => by obtain ⟨_, _, hok⟩ := hx; cases hok)
  refine runs_bind (hage told.1.lastSuccess g₂) (fun age g₃ hy => ?_) (fun e g₃ hy => by obtain ⟨_, _, hok⟩ := hy; cases hok)
  exact ⟨hg₁.trans (hx.1.trans hy.1), known, hfresh, rfl, rfl⟩

/-- What each call may answer. -/
def Call.Serves (upstream : Upstream) (settings : MarketSettings) (since : Decimal) (asOf : Timestamp) :
    Call → Answer → Prop
  | getExchangeInfo, answer => ∃ info, answer = .info info ∧ FreshInfo upstream settings since info
  | getSymbols eligibleOnly, answer => ∃ info, FreshInfo upstream settings since info ∧
      answer = .symbols (if eligibleOnly then info.symbols.filter isEligible else info.symbols)
  | getTicker symbol, answer => ∃ observation, answer = .ticker observation ∧
      TickerServed upstream settings since asOf symbol observation
  | getAllTickers, answer => ∃ observation, answer = .tickers observation ∧
      TickersServed upstream settings since asOf observation
  | getKlines symbol timeframe limit, answer => ∃ observation, answer = .klines observation ∧
      KlinesServed upstream settings since asOf symbol timeframe limit observation
  | getMarketStatus, answer => ∃ status, answer = .status status ∧ StatusServed upstream settings since status

/-- How each call may fail. -/
def Call.Fails (upstream : Upstream) (settings : MarketSettings) (since : Decimal) : Call → Failure → Prop
  | getExchangeInfo, failure => InfoFailed upstream since failure
  | getSymbols _, failure => InfoFailed upstream since failure
  | getTicker symbol, failure => Unresolved upstream settings since symbol failure ∨
      StatsFailed upstream since (tickerParams (Runtime.upper symbol)) parseTicker failure
  | getAllTickers, failure => StatsFailed upstream since [] parseTickerList failure
  | getKlines symbol timeframe limit, failure => Unresolved upstream settings since symbol failure ∨
      Failed upstream since klinesPath (klinesParams (Runtime.upper symbol) timeframe (boundedLimit settings limit))
        (fun payload error => parseKlines payload (Runtime.upper symbol) timeframe = .error error) failure
  | getMarketStatus, _ => False

def Served.Faithful (upstream : Upstream) (settings : MarketSettings) (served : Served) : Prop :=
  Comes (served.call.Serves upstream settings served.since served.asOf)
    (served.call.Fails upstream settings served.since) served.answer

theorem yields_body (call : Call) (hs : since ≤ g.1) (hasOf : asOf ≤ g.2) :
    Yields upstream settings (call.body settings) g (call.Serves upstream settings since asOf)
      (call.Fails upstream settings since) := by
  cases call with
  | getExchangeInfo =>
      exact yields_bind (yields_getExchangeInfo hs) (fun info _ _ h => yields_ret ⟨info, rfl, h⟩) fun _ h => h
  | getSymbols eligibleOnly =>
      refine yields_bind (yields_getSymbols eligibleOnly hs) (fun symbols _ _ h => ?_) fun _ h => h
      obtain ⟨info, hinfo, rfl⟩ := h
      exact yields_ret ⟨info, hinfo, rfl⟩
  | getTicker symbol =>
      exact yields_bind (yields_getTicker symbol hs hasOf) (fun o _ _ h => yields_ret ⟨o, rfl, h⟩) fun _ h => h
  | getAllTickers =>
      exact yields_bind (yields_getAllTickers hs hasOf) (fun o _ _ h => yields_ret ⟨o, rfl, h⟩) fun _ h => h
  | getKlines symbol timeframe limit =>
      exact yields_bind (yields_getKlines symbol timeframe limit hs hasOf) (fun o _ _ h => yields_ret ⟨o, rfl, h⟩)
        fun _ h => h
  | getMarketStatus =>
      exact yields_bind (yields_getMarketStatus hs) (fun status _ _ h => yields_ret ⟨status, rfl, h⟩) fun _ h => h

theorem runs_asked (call : Call) (hs : since ≤ g.1) :
    Runs upstream settings (do
      let asOf ← perform .utcnow
      let answer ← (call.body settings).caught
      return (⟨call, since, asOf, answer⟩ : Served)) g fun r _ =>
      ∀ served, r = .ok served → served.Faithful upstream settings := by
  refine runs_bind runs_utcnow (fun asOf g₁ hx => ?_) fun e g₁ hx => nomatch hx.2
  obtain ⟨hg₁, hok⟩ := hx
  cases hok
  refine runs_bind (runs_caught (yields_body call (hs.trans hg₁.1) le_rfl)) (fun answer g₂ hx => ?_) fun e g₂ hx => ?_
  · obtain ⟨_, hok, _, hcomes⟩ := hx
    cases hok
    rintro served ⟨⟩
    exact hcomes
  · obtain ⟨_, hok, _⟩ := hx
    cases hok

/-- A call knows nothing until it has read the clocks. -/
theorem serve_begins (c : MarketM Served) (h : Calls settings c) :
    (protocol upstream settings).knowing.Begins (exec upstream)
      (fun r => ∀ served, r = .ok served → served.Faithful upstream settings) c := by
  obtain ⟨call, rfl⟩ := h
  refine Protocol.Begins.knowing (fun _ _ => trivial) fun w r w' hi hx => ?_
  obtain ⟨monotonic, wall, hm, hw, rfl, rfl⟩ := hx
  have hpassed : Inv upstream settings { w with monotonic := monotonic, wall := wall } :=
    ⟨fun slot => (hi.sound slot).mono hm⟩
  exact ⟨(monotonic, wall), hpassed, ⟨le_rfl, le_rfl⟩, fun k hk => ⟨hk.1.trans hm, hk.2.trans hw⟩, runs_asked call le_rfl⟩

omit [Runtime] in
theorem inv_opened (monotonic : Decimal) (wall : Timestamp) : Inv upstream settings (opened settings monotonic wall) := by
  have hempty : ∀ {V : Type} {slot : Slot V} {cache : TTLCache V Decimal}, cache.ttl = ttl settings slot →
      cache.entries = .empty → Sound upstream settings slot cache monotonic := by
    intro V slot cache httl hcache
    refine ⟨httl, fun key entry hentry => ?_⟩
    rw [hcache] at hentry
    cases hentry
  refine ⟨fun slot => ?_⟩
  cases slot <;> exact hempty rfl rfl

end Calls

/-! ### What the tracker tells -/

section Tracking

variable {upstream : Upstream} {w w' : MarketWorld} {β : Type}

/-- Before any success the connection is unknown or unavailable, after one it is as the last
outcome was; a failure at the very reading of the clock of a success does not show. -/
structure Tells (tracker : ConnectionTracker) (outcomes : List Outcome) : Prop where
  unknown : tracker.status = .unknown ↔ outcomes = []
  unavailable : tracker.status = .unavailable ↔ outcomes ≠ [] ∧ .success ∉ outcomes
  connected : outcomes.getLast? = some .success → tracker.status = .connected
  degraded : ∀ errorCode, outcomes.getLast? = some (.failure errorCode) → .success ∈ outcomes →
    tracker.status = .degraded ∨ tracker.lastFailure = tracker.lastSuccess
  lastErrorCode : tracker.lastErrorCode = (outcomes.filterMap fun
    | .success => none
    | .failure errorCode => some errorCode).getLast?

/-- Both times have passed, and the later outcome has the later time. -/
structure Tracked (w : MarketWorld) : Prop where
  lastSuccess : w.tracker.lastSuccess.isSome ↔ .success ∈ w.outcomes
  lastFailure : w.tracker.lastFailure.isSome ↔ ∃ errorCode, .failure errorCode ∈ w.outcomes
  succeeded : ∀ t ∈ w.tracker.lastSuccess, t ≤ w.wall
  failed : ∀ t ∈ w.tracker.lastFailure, t ≤ w.wall
  afterSuccess : w.outcomes.getLast? = some .success →
    ∀ t ∈ w.tracker.lastSuccess, ∀ t' ∈ w.tracker.lastFailure, t' ≤ t
  afterFailure : ∀ errorCode, w.outcomes.getLast? = some (.failure errorCode) →
    ∀ t ∈ w.tracker.lastSuccess, ∀ t' ∈ w.tracker.lastFailure, t ≤ t'
  lastErrorCode : w.tracker.lastErrorCode = (w.outcomes.filterMap fun
    | .success => none
    | .failure errorCode => some errorCode).getLast?

theorem Tracked.later (h : Tracked w) {wall : Timestamp} (hwall : w.wall ≤ wall) (monotonic : Decimal) :
    Tracked { w with monotonic := monotonic, wall := wall } :=
  { h with
    succeeded := fun t ht => (h.succeeded t ht).trans hwall
    failed := fun t ht => (h.failed t ht).trans hwall }

theorem Tracked.recordSuccess (h : Tracked w) :
    Tracked { w with tracker := w.tracker.recordSuccess w.wall, outcomes := w.outcomes ++ [.success] } where
  lastSuccess := by simp [ConnectionTracker.recordSuccess]
  lastFailure := by simpa [ConnectionTracker.recordSuccess] using h.lastFailure
  succeeded := by
    rintro t ⟨⟩
    exact le_rfl
  failed := h.failed
  afterSuccess := by
    rintro - t ⟨⟩ t' ht'
    exact h.failed t' ht'
  afterFailure := by simp
  lastErrorCode := by simpa [ConnectionTracker.recordSuccess] using h.lastErrorCode

theorem Tracked.recordFailure (h : Tracked w) (errorCode : String) :
    Tracked { w with
      tracker := w.tracker.recordFailure errorCode w.wall
      outcomes := w.outcomes ++ [.failure errorCode] } where
  lastSuccess := by simpa [ConnectionTracker.recordFailure] using h.lastSuccess
  lastFailure := by simp [ConnectionTracker.recordFailure]
  succeeded := h.succeeded
  failed := by
    rintro t ⟨⟩
    exact le_rfl
  afterSuccess := by simp
  afterFailure := by
    rintro _ - t ht t' ⟨⟩
    exact h.succeeded t ht
  lastErrorCode := by simp [ConnectionTracker.recordFailure]

theorem Tracked.empty_iff (h : Tracked w) :
    w.outcomes = [] ↔ w.tracker.lastSuccess = none ∧ w.tracker.lastFailure = none := by
  constructor
  · intro hempty
    have hs := h.lastSuccess
    have hf := h.lastFailure
    rw [hempty] at hs hf
    simpa using And.intro hs hf
  · rintro ⟨hs, hf⟩
    refine List.eq_nil_iff_forall_not_mem.mpr fun outcome houtcome => ?_
    cases outcome with
    | success =>
        have hsome := h.lastSuccess.mpr houtcome
        rw [hs] at hsome
        cases hsome
    | failure errorCode =>
        have hsome := h.lastFailure.mpr ⟨errorCode, houtcome⟩
        rw [hf] at hsome
        cases hsome

theorem Tracked.tells (h : Tracked w) : Tells w.tracker w.outcomes := by
  have hsome : .success ∈ w.outcomes → ∃ t, w.tracker.lastSuccess = some t :=
    fun hs => Option.isSome_iff_exists.mp (h.lastSuccess.mpr hs)
  have hnone : w.tracker.lastSuccess = none ↔ .success ∉ w.outcomes := by
    rw [← h.lastSuccess, Option.not_isSome_iff_eq_none]
  refine ⟨?_, ?_, fun hlast => ?_, fun errorCode hlast hs => ?_, h.lastErrorCode⟩
  · rw [ConnectionTracker.status_unknown_iff, h.empty_iff]
  · rw [ConnectionTracker.status_unavailable_iff, hnone, ne_eq, h.empty_iff, Option.isSome_iff_ne_none]
    tauto
  · obtain ⟨t, ht⟩ := hsome (List.mem_of_getLast? hlast)
    rw [ConnectionTracker.status_of_success ht, if_neg]
    intro hlater
    obtain ⟨t', ht', hlt⟩ := (Option.any_eq_true _ _).mp hlater
    exact absurd (h.afterSuccess hlast t ht t' ht') (not_le.mpr (of_decide_eq_true hlt))
  · obtain ⟨t, ht⟩ := hsome hs
    obtain ⟨t', ht'⟩ := Option.isSome_iff_exists.mp (h.lastFailure.mpr ⟨errorCode, List.mem_of_getLast? hlast⟩)
    rw [ConnectionTracker.status_of_success ht, ht, ht']
    rcases (h.afterFailure errorCode hlast t ht t' ht').lt_or_eq with hlt | rfl
    · exact .inl (if_pos (decide_eq_true hlt))
    · exact .inr rfl

theorem tracked_does {f : MarketEffect β} {r : Except Failure β} (h : Tracked w) (hd : Does upstream f w r w') :
    Tracked w' := by
  cases f with
  | getJson path params => exact hd.1 ▸ h
  | firstDone => exact hd.1 ▸ h
  | cached slot key => exact hd.2 ▸ { h with }
  | store slot key value => exact hd.2 ▸ { h with }
  | recordSuccess => exact hd.2 ▸ h.recordSuccess
  | recordFailure errorCode => exact hd.2 ▸ h.recordFailure errorCode
  | universeUpdated => exact hd.2 ▸ { h with }
  | tracked => exact hd.1 ▸ h
  | monotonic => exact hd.1 ▸ h
  | utcnow => exact hd.1 ▸ h

theorem tracked_opened (settings : MarketSettings) (monotonic : Decimal) (wall : Timestamp) :
    Tracked (opened settings monotonic wall) where
  lastSuccess := by simp [opened]
  lastFailure := by simp [opened]
  succeeded := nofun
  failed := nofun
  afterSuccess := nofun
  afterFailure := nofun
  lastErrorCode := rfl

/-- Whatever is in flight, the connection is told as its outcomes were, in their order. -/
theorem status_tells_outcomes [Runtime] [Platform] {settings : MarketSettings} {monotonic : Decimal} {wall : Timestamp}
    {pool : List (MarketM Served)}
    (h : Reachable (exec upstream) (Calls settings) (opened settings monotonic wall) (w, pool)) :
    Tells w.tracker w.outcomes := by
  have htracked : Tracked w := by
    refine reachable_performs (fun c _ => performs_of_forall (fun _ => trivial) c) (fun f w r w' _ hw hx => ?_)
      (tracked_opened settings monotonic wall) h
    obtain ⟨monotonic, wall, _, hwall, hd⟩ := hx
    exact tracked_does (hw.later hwall monotonic) hd
  exact htracked.tells

end Tracking

section Outcome

variable [Runtime] [Platform] {upstream : Upstream} {settings : MarketSettings} {monotonic : Decimal} {wall : Timestamp}

end Outcome

section Bookless

theorem defaultInfoTtl_pos : (0 : Decimal) < 300 := by norm_num

theorem defaultTickerTtl_pos : (0 : Decimal) < 3 := by norm_num

theorem defaultKlinesTtl_pos : (0 : Decimal) < 10 := by norm_num

theorem one_le_defaultKlines : 1 ≤ 16 := by norm_num

theorem one_le_defaultTickers : 1 ≤ 64 := by norm_num

def defaultMarketSettings : MarketSettings where
  exchangeInfoTtl_pos := defaultInfoTtl_pos
  tickerTtl_pos := defaultTickerTtl_pos
  klinesTtl_pos := defaultKlinesTtl_pos
  one_le_klinesCache := one_le_defaultKlines
  one_le_tickerCache := one_le_defaultTickers

/-- A venue that is up, but for its best bids and asks. -/
def booklessAnswer (path : String) : Except ExchangeError Json :=
  if path = bookTicker then .error (.unavailable "Binance is unavailable" []) else .ok (.list [])

def bookless : Upstream := fun _ path _ answer => answer = booklessAnswer path

def replay : {β : Type} → MarketEffect β → MarketWorld → Except Failure β × MarketWorld
  | _, .getJson path _, w => ((booklessAnswer path).mapError .exchange, w)
  | _, .firstDone, w => (.ok false, w)
  | _, .cached slot key, w =>
      let (found, cache) := (w.caches.select slot).get key w.monotonic
      (.ok found, { w with caches := w.caches.put slot cache })
  | _, .store slot key value, w =>
      (.ok (), { w with caches := w.caches.put slot ((w.caches.select slot).set key value w.monotonic) })
  | _, .recordSuccess, w =>
      (.ok (), { w with tracker := w.tracker.recordSuccess w.wall, outcomes := w.outcomes ++ [.success] })
  | _, .recordFailure code, w =>
      (.ok (), { w with tracker := w.tracker.recordFailure code w.wall, outcomes := w.outcomes ++ [.failure code] })
  | _, .universeUpdated, w => (.ok (), { w with universeUpdatedAt := some w.wall })
  | _, .tracked, w => (.ok (w.tracker, w.universeUpdatedAt), w)
  | _, .monotonic, w => (.ok w.monotonic, w)
  | _, .utcnow, w => (.ok w.wall, w)

theorem exec_replay {β : Type} (f : MarketEffect β) (w : MarketWorld) :
    exec bookless f w (replay f w).1 (replay f w).2 := by
  refine ⟨w.monotonic, w.wall, le_rfl, le_rfl, ?_⟩
  cases f with
  | getJson path params => exact ⟨rfl, _, rfl, rfl⟩
  | firstDone => exact ⟨rfl, false, rfl⟩
  | cached slot key => exact ⟨rfl, rfl⟩
  | store slot key value => exact ⟨rfl, rfl⟩
  | recordSuccess => exact ⟨rfl, rfl⟩
  | recordFailure code => exact ⟨rfl, rfl⟩
  | universeUpdated => exact ⟨rfl, rfl⟩
  | tracked => exact ⟨rfl, rfl⟩
  | monotonic => exact ⟨rfl, rfl⟩
  | utcnow => exact ⟨rfl, rfl⟩

def emptyMarket : Served :=
  ⟨.getAllTickers, 0, 0, .ok (.tickers ⟨some [], .ok, sourceRest, none, 0, none, rfl⟩)⟩

/-- The run of one call for every ticker, after which the best bids and asks have failed. -/
theorem reachable_emptyMarket :
    ∃ w, Reachable (exec bookless) (@Calls referenceRuntime ParserErrors.referencePlatform defaultMarketSettings)
        (opened defaultMarketSettings 0 0) (w, [.ret emptyMarket]) ∧
      w.outcomes = [.failure "EXCHANGE_UNAVAILABLE", .success] := by
  let _ : Runtime := referenceRuntime
  let _ : Platform := ParserErrors.referencePlatform
  have hstart : Reachable (exec bookless) (Calls defaultMarketSettings) (opened defaultMarketSettings 0 0)
      (opened defaultMarketSettings 0 0, []) := .refl
  have hrun := reachable_interp (exec bookless) (Calls defaultMarketSettings) exec_replay hstart ⟨.getAllTickers, rfl⟩
  have hended : (finished ((Call.getAllTickers.serve defaultMarketSettings).interp replay
      (opened defaultMarketSettings 0 0)).1 : MarketM Served) = .ret emptyMarket := rfl
  rw [hended] at hrun
  exact ⟨_, hrun, rfl⟩

theorem status_tells_outcomes_bookless :
    ∃ w, Reachable (exec bookless) (@Calls referenceRuntime ParserErrors.referencePlatform defaultMarketSettings)
        (opened defaultMarketSettings 0 0) (w, [.ret emptyMarket]) ∧
      w.outcomes = [.failure "EXCHANGE_UNAVAILABLE", .success] ∧ Tells w.tracker w.outcomes := by
  obtain ⟨w, hrun, houtcomes⟩ := reachable_emptyMarket
  exact ⟨w, hrun, houtcomes, @status_tells_outcomes _ _ referenceRuntime ParserErrors.referencePlatform _ _ _ _ hrun⟩

end Bookless

end Aetheris.MarketDataRuns
