import Aetheris.Submission
import Aetheris.TestnetRuling

namespace Aetheris.TestnetDesk

open Lib Coroutine Protocol Money Clock Enums RiskEngine OrderRecords OrderMachine OrderStore OrderEngine OrderCalls
  OrderIdentity
open RecordStore TestnetService TestnetWorld TestnetRuling
open PaperService (Observation Ticker VolatilityMeasurement)

variable {durable : Bool}

/-- The venue's account: the notional that is open in each symbol, and what the
session has realised. -/
structure VenueBook where
  positions : Dict String Decimal
  realizedPnl : Decimal

/-- An order handed to the venue: what its call had read, the record, and the
account as it was. -/
structure Dispatch where
  notes : List Reading
  record : OrderRecord
  book : VenueBook

structure Desk (durable : Bool) where
  base : World durable
  book : VenueBook
  dispatched : List Dispatch := []

def dispatches (notes : List Reading) (book : VenueBook) :
    {β : Type} → TestnetService.Effect (RecordStore durable) β → List Dispatch
  | _, .submit record => [⟨notes, record, book⟩]
  | _, _ => []

variable [Runtime]

/-- The venue's account is the venue's, and may have changed whenever it is looked at again. -/
def exec : Semantics (Noted Reading (Detailed (RecordStore durable))) ServiceError (Desk durable)
  | _, ⟨notes, .base f⟩, d, r, d' =>
      TestnetWorld.exec f d.base r d'.base ∧ d'.dispatched = d.dispatched ++ dispatches notes d.book f
  | _, ⟨_, .reconciliationPending⟩, d, r, d' =>
      Commits reconciliationPending d.base r d'.base ∧ d'.dispatched = d.dispatched
  | _, _, d, _, d' => d'.base = d.base ∧ d'.dispatched = d.dispatched

variable (service : TestnetExecutionService) (settings : RiskSettings)

/-- What an order rests on: what its call was asked, all that it read, in that
order, and the verdict on it. -/
structure Grounds where
  request : TestnetOrderRequest
  now : Timestamp
  mark : Observation
  ticker : Ticker
  volatility : VolatilityMeasurement
  balance : Decimal
  maxLeverage : Decimal
  realized : Decimal
  pending : ReconciliationPending
  filters : SymbolFilters
  verdict : RiskEngine.RiskVerdict
  leverage : Decimal
  sizingMark : Observation
  sizingTicker : Ticker
  sizingFilters : SymbolFilters

namespace Grounds

variable (x : Grounds)

def symbol : String := Runtime.upper x.request.symbol

/-- The price the order was sized at. -/
def price : Decimal := x.sizingTicker.lastPrice

def step : Decimal := x.sizingFilters.stepSize

/-- What the requested margin is worth at the approved leverage. -/
def worth : Decimal := x.request.margin * x.leverage

def opened : List Reading := [.asked x.request, .clock x.now]

def ruled : List Reading :=
  [.ticker x.symbol x.mark, .volatility x.volatility, .account ⟨some x.balance⟩, .bracket x.maxLeverage,
    .realized x.realized, .pending x.pending, .listing x.symbol x.filters]

def sized : List Reading := [.ticker x.symbol x.sizingMark, .listing x.symbol x.sizingFilters]

/-- The approval the order was placed on. -/
structure Ruled : Prop where
  priced : x.mark.value = some x.ticker
  evaluated : evaluate (proposal x.request x.symbol)
    (TestnetRuling.accountView service settings x.balance x.realized x.pending)
    (TestnetRuling.marketView x.mark x.ticker.lastPrice x.volatility x.filters x.maxLeverage) settings.policy x.now =
      .ok x.verdict
  approved : x.verdict.approved = true
  leverage : x.verdict.leverage.approvedLeverage = some x.leverage

omit [Runtime] in
/-- How the quantity of the order came about. -/
structure Sized (quantity : Decimal) : Prop where
  priced : x.sizingMark.value = some x.sizingTicker
  price_pos : 0 < x.sizingTicker.lastPrice
  step_pos : 0 < x.sizingFilters.stepSize
  positive : 0 < quantity
  quantity : quantity =
    truncDiv (x.request.margin * x.leverage / x.sizingTicker.lastPrice) x.sizingFilters.stepSize *
      x.sizingFilters.stepSize

end Grounds

structure Rests (x : Grounds) (d : Dispatch) : Prop where
  notes : d.notes = x.opened ++ x.ruled ++ x.sized
  symbol : d.record.intent.symbol = x.symbol
  ruled : x.Ruled service settings
  sized : x.Sized d.record.intent.quantity

/-- The order a call has created, and the size it has given it. -/
structure Ticket where
  orderId : String
  symbol : String
  quantity : Option Decimal := none

omit [Runtime] in
def Holds : Option Ticket → Desk durable → Prop
  | none, _ => True
  | some t, d => ∃ r, d.base.orders.find? t.orderId = some r ∧ r.intent.symbol = t.symbol ∧
      ∀ q ∈ t.quantity, r.intent.quantity = q

omit [Runtime] in
def Apart : Option Ticket → Option Ticket → Prop
  | some t, some u => t.orderId ≠ u.orderId
  | _, _ => True

def Grounded (d : Desk durable) : Prop := ∀ x ∈ d.dispatched, ∃ g, Rests service settings g x

def protocol : Protocol (Desk durable) (Option Ticket) where
  inv := Grounded service settings
  holds := Holds
  apart := Apart
  apart_symm := by
    rintro (_ | t) (_ | u) h
    · trivial
    · trivial
    · trivial
    · exact Ne.symm h

section Moves

variable {service settings} {d d' : Desk durable} {t : Ticket} {g : Option Ticket}

theorem grounded_of_eq (h : Grounded service settings d) (hd : d'.dispatched = d.dispatched) :
    Grounded service settings d' := by
  unfold Grounded
  rw [hd]
  exact h

omit [Runtime] in
theorem holds_of_eq (h : Holds g d) (ho : d'.base.orders = d.base.orders) : Holds g d' := by
  cases g with
  | none => trivial
  | some t =>
      obtain ⟨r, hr, hrest⟩ := h
      exact ⟨r, ho ▸ hr, hrest⟩

theorem moves_still (hi : Grounded service settings d) (hg : Holds g d) (ho : d'.base.orders = d.base.orders)
    (hd : d'.dispatched = d.dispatched) : (protocol service settings).Moves g d g d' where
  inv := grounded_of_eq hi hd
  holds := holds_of_eq hg ho
  frame := fun _ _ hh => holds_of_eq hh ho
  apart := fun _ ha _ => ha

theorem moves_put {r : OrderRecord} {quantity : Option Decimal} (hi : Grounded service settings d)
    (hid : r.orderId = t.orderId) (hs : r.intent.symbol = t.symbol) (hq : ∀ q ∈ quantity, r.intent.quantity = q)
    (ho : d'.base.orders = d.base.orders.put r) (hd : d'.dispatched = d.dispatched) :
    (protocol service settings).Moves (some t) d (some ⟨t.orderId, t.symbol, quantity⟩) d' where
  inv := grounded_of_eq hi hd
  holds := ⟨r, by rw [ho, ← hid, find?_put_self], hs, hq⟩
  frame := by
    rintro (_ | u) ha hh
    · trivial
    · obtain ⟨b, hb, hrest⟩ := hh
      have hne : r.orderId ≠ u.orderId := hid ▸ ha
      exact ⟨b, by rw [ho, find?_put_of_ne _ hne, hb], hrest⟩
  apart := by
    rintro (_ | u) ha _
    · trivial
    · exact ha

/-- A new order is its creator's. -/
theorem moves_create {r : OrderRecord} (hi : Grounded service settings d)
    (hnew : d.base.orders.find? r.orderId = none) (ho : d'.base.orders = d.base.orders.put r)
    (hd : d'.dispatched = d.dispatched) :
    (protocol service settings).Moves none d (some ⟨r.orderId, r.intent.symbol, none⟩) d' := by
  have hne : ∀ {orderId b}, d.base.orders.find? orderId = some b → r.orderId ≠ orderId := by
    rintro orderId b hb rfl
    exact nomatch hnew.symm.trans hb
  refine ⟨grounded_of_eq hi hd, ⟨r, by rw [ho, find?_put_self], rfl, nofun⟩, ?_, ?_⟩
  · rintro (_ | u) _ hh
    · trivial
    · obtain ⟨b, hb, hrest⟩ := hh
      exact ⟨b, by rw [ho, find?_put_of_ne _ (hne hb), hb], hrest⟩
  · rintro (_ | u) _ hh
    · trivial
    · obtain ⟨b, hb, _⟩ := hh
      exact hne hb

end Moves

section Steps

variable {service settings} {α β : Type} {notes : List Reading} {g : Option Ticket}

variable (durable) in
/-- From these notes and this private state a part of a call is careful. -/
abbrev Careful (service : TestnetExecutionService) (settings : RiskSettings) (c : DetailedM (RecordStore durable) α)
    (notes : List Reading) (g : Option Ticket) (post : Except ServiceError α → List Reading → Option Ticket → Prop) :
    Prop := (protocol service settings).Careful exec note c notes g post

variable (durable) in
/-- A part of a call, in detail, whatever it ends in. -/
abbrev Runs (service : TestnetExecutionService) (settings : RiskSettings) (c : ServiceM (RecordStore durable) α)
    (notes : List Reading) (g : Option Ticket) : Prop :=
  Careful durable service settings (c.expand (inDetail service settings)) notes g fun _ _ _ => True

theorem runs_bind {c : ServiceM (RecordStore durable) α} {k : α → ServiceM (RecordStore durable) β}
    (h : Careful durable service settings (c.expand (inDetail service settings)) notes g fun r notes' g' =>
      ∀ a, r = .ok a → Runs durable service settings (k a) notes' g') : Runs durable service settings (c >>= k) notes g := by
  unfold Runs
  rw [expand_bind]
  refine Protocol.Careful.bind (h.mono fun r notes' g' hr => ?_)
  cases r with
  | ok a => exact hr a rfl
  | error e => trivial

theorem runs_caught_bind {c : ServiceM (RecordStore durable) α}
    {k : Except ServiceError α → ServiceM (RecordStore durable) β}
    (h : Careful durable service settings (c.expand (inDetail service settings)) notes g fun r notes' g' =>
      Runs durable service settings (k r) notes' g') : Runs durable service settings (c.caught >>= k) notes g := by
  apply runs_bind
  rw [expand_caught]
  refine Protocol.Careful.caught (h.mono fun r notes' g' hr => ?_)
  rintro _ ⟨⟩
  exact hr

/-- An await that leaves the store and the venue's order book alone. -/
theorem careful_read {f : Detailed (RecordStore durable) α}
    (hf : ∀ (d : Desk durable) r d', exec ⟨notes, f⟩ d r d' → d'.base.orders = d.base.orders ∧
      d'.dispatched = d.dispatched) :
    Careful durable service settings (perform f) notes g fun r notes' g' => notes' = notes ++ note f r ∧ g' = g := by
  refine Protocol.Careful.perform fun d r d' hi hg hx => ?_
  obtain ⟨ho, hd⟩ := hf d r d' hx
  exact ⟨g, moves_still hi hg ho hd, rfl, rfl⟩

theorem still_base {f : TestnetService.Effect (RecordStore durable) α}
    (hf : ∀ (w : World durable) r w', TestnetWorld.exec f w r w' → w' = w)
    (hd : ∀ notes book, dispatches notes book f = []) (d : Desk durable) (r : Except ServiceError α) (d' : Desk durable)
    (hx : exec ⟨notes, .base f⟩ d r d') : d'.base.orders = d.base.orders ∧ d'.dispatched = d.dispatched := by
  obtain ⟨hbase, hdispatched⟩ := hx
  rw [hd, List.append_nil] at hdispatched
  rw [hf _ _ _ hbase]
  exact ⟨rfl, hdispatched⟩

/-- An await that is not gone into, and reads nothing of note. -/
theorem careful_unnoted {f : TestnetService.Effect (RecordStore durable) α}
    (hdetail : inDetail service settings f = perform (.base f)) (hnote : ∀ r, note (.base f) r = [])
    (hf : ∀ (w : World durable) r w', TestnetWorld.exec f w r w' → w' = w)
    (hd : ∀ notes book, dispatches notes book f = []) :
    Careful durable service settings ((perform f).expand (inDetail service settings)) notes g
      fun _ notes' g' => notes' = notes ∧ g' = g := by
  rw [expand_perform, hdetail]
  refine (careful_read (still_base hf hd)).mono ?_
  rintro r notes' g' ⟨rfl, rfl⟩
  rw [hnote, List.append_nil]
  exact ⟨rfl, rfl⟩

theorem runs_transact {step : OrderM (RecordStore durable) α} {k : α → ServiceM (RecordStore durable) β}
    (h : ∀ (d d' : Desk durable) a s, Grounded service settings d → Holds g d → step d.base.orders = .ok (a, s) →
      d'.base.orders = s → d'.dispatched = d.dispatched →
      ∃ g', (protocol service settings).Moves g d g' d' ∧ Runs durable service settings (k a) notes g') :
    Runs durable service settings (perform (.transact step) >>= k) notes g := by
  apply runs_bind
  rw [expand_perform]
  refine Protocol.Careful.perform fun d r d' hi hg hx => ?_
  obtain ⟨hbase, hdispatched⟩ := hx
  rw [show dispatches notes d.book (.transact step) = [] from rfl, List.append_nil] at hdispatched
  have hnote : note (.base (.transact step)) r = [] := by cases r <;> rfl
  rw [hnote, List.append_nil]
  have hstill : (d'.base.orders = d.base.orders) → ∃ g', (protocol service settings).Moves g d g' d' :=
    fun ho => ⟨g, moves_still hi hg ho hdispatched⟩
  change Commits step d.base r d'.base at hbase
  unfold Commits at hbase
  cases hstep : step d.base.orders with
  | error e =>
      rw [hstep] at hbase
      obtain ⟨hr, hsame⟩ := hbase
      obtain ⟨g', hm⟩ := hstill (by rw [hsame])
      refine ⟨g', hm, fun a ha => ?_⟩
      rcases hr with rfl | ⟨message, rfl⟩
      · exact nomatch ha
      · exact nomatch ha
  | ok p =>
      obtain ⟨a, s⟩ := p
      rw [hstep] at hbase
      rcases hbase with ⟨rfl, hw⟩ | ⟨⟨message, rfl⟩, hw | hw⟩
      · obtain ⟨g', hm, hk⟩ := h d d' a s hi hg hstep (by rw [hw]; rfl) hdispatched
        exact ⟨g', hm, fun _ ha => by cases ha; exact hk⟩
      · obtain ⟨g', hm⟩ := hstill (by rw [hw])
        exact ⟨g', hm, fun _ ha => nomatch ha⟩
      · obtain ⟨g', hm, _⟩ := h d d' a s hi hg hstep (by rw [hw]; rfl) hdispatched
        exact ⟨g', hm, fun _ ha => nomatch ha⟩

theorem runs_write {t : Ticket} {step : OrderM (RecordStore durable) OrderRecord}
    (write : OrderRecord → OrderRecord) {k : OrderRecord → ServiceM (RecordStore durable) β}
    (hstep : ∀ s p, step s = .ok p → ∃ r, Loads s t.orderId r ∧ Puts s (write r) p)
    (hid : ∀ r, (write r).orderId = r.orderId) (hintent : ∀ r, (write r).intent = r.intent)
    (hk : ∀ a, Runs durable service settings (k a) notes (some t)) :
    Runs durable service settings (perform (.transact step) >>= k) notes (some t) := by
  apply runs_transact
  intro d d' a s hi hg hs ho hd
  obtain ⟨r, hl, _, hp⟩ := hstep _ _ hs
  cases hp
  obtain ⟨b, hb, hsymbol, hquantity⟩ := hg
  cases hl.1.symm.trans hb
  refine ⟨some t, moves_put hi ((hid r).trans hl.orderId) (by rw [hintent, hsymbol]) ?_ ho hd, hk _⟩
  intro q hq
  rw [hintent]
  exact hquantity q hq

theorem runs_get {t : Ticket} {k : Option OrderRecord → ServiceM (RecordStore durable) β}
    (hk : ∀ r, r.orderId = t.orderId → r.intent.symbol = t.symbol → (∀ q ∈ t.quantity, r.intent.quantity = q) →
      Runs durable service settings (k (some r)) notes (some t)) :
    Runs durable service settings (perform (.transact (OrderRepository.get t.orderId)) >>= k) notes (some t) := by
  apply runs_transact
  intro d d' a s hi hg hs ho hd
  obtain ⟨_, he⟩ := get_ok.mp hs
  cases he
  obtain ⟨r, hr, hsymbol, hquantity⟩ := hg
  rw [hr]
  exact ⟨some t, moves_still hi ⟨r, hr, hsymbol, hquantity⟩ ho hd, hk r (orderId_of_find? hr) hsymbol hquantity⟩

end Steps

section Reads

variable {service settings} {α β : Type} {notes : List Reading} {g : Option Ticket} {symbol : String}

omit [Runtime] in
theorem reconciliationPending_ok {s : RecordStore durable} {p : ReconciliationPending × RecordStore durable}
    (h : reconciliationPending s = .ok p) : p.2 = s := by
  unfold reconciliationPending at h
  rw [Transaction.bind_ok] at h
  obtain ⟨scan, t, hscan, h⟩ := h
  cases hscan
  split at h
  · cases h
    rfl
  · cases h
    rfl

/-- A read is answered with something that is noted, or it raises. -/
theorem careful_await {f : Detailed (RecordStore durable) α} {k : α → DetailedM (RecordStore durable) β}
    {post : Except ServiceError β → List Reading → Option Ticket → Prop}
    (hf : ∀ (d : Desk durable) r d', exec ⟨notes, f⟩ d r d' → d'.base.orders = d.base.orders ∧
      d'.dispatched = d.dispatched)
    (hraise : ∀ e notes', post (.error e) notes' g)
    (hk : ∀ a, Careful durable service settings (k a) (notes ++ note f (.ok a)) g post) :
    Careful durable service settings (perform f >>= k) notes g post := by
  refine Protocol.Careful.bind ((careful_read hf).mono ?_)
  rintro r notes' g' ⟨rfl, rfl⟩
  cases r with
  | ok a => exact hk a
  | error e => exact hraise e _

omit [Runtime] in
theorem quiet {d d' : Desk durable} (h : d'.base = d.base ∧ d'.dispatched = d.dispatched) :
    d'.base.orders = d.base.orders ∧ d'.dispatched = d.dispatched := ⟨by rw [h.1], h.2⟩

theorem quiet_pending (d : Desk durable) (r : Except ServiceError ReconciliationPending) (d' : Desk durable)
    (hx : exec ⟨notes, .reconciliationPending⟩ d r d') :
    d'.base.orders = d.base.orders ∧ d'.dispatched = d.dispatched := by
  obtain ⟨hbase, hdispatched⟩ := hx
  refine ⟨?_, hdispatched⟩
  unfold Commits at hbase
  cases hstep : reconciliationPending d.base.orders with
  | error e =>
      rw [hstep] at hbase
      rw [hbase.2]
  | ok p =>
      have hsame := reconciliationPending_ok hstep
      rw [hstep] at hbase
      rcases hbase with ⟨_, hw⟩ | ⟨_, hw | hw⟩
      · rw [hw]
        exact hsame
      · rw [hw]
      · rw [hw]
        exact hsame

theorem careful_lastPrice :
    Careful durable service settings (inDetail service settings (.lastPrice symbol)) notes g
      fun r notes' g' => g' = g ∧ ∀ price, r = .ok (some price) →
        ∃ mark ticker, notes' = notes ++ [.ticker symbol mark] ∧ mark.value = some ticker ∧ price = ticker.lastPrice := by
  refine careful_await (fun _ _ _ hx => quiet hx) (fun _ _ => ⟨rfl, nofun⟩) fun mark => ⟨rfl, fun price hprice => ?_⟩
  obtain ⟨ticker, hticker, rfl⟩ := Option.map_eq_some_iff.mp (Except.ok.inj hprice)
  exact ⟨mark, ticker, rfl, hticker, rfl⟩

theorem careful_stepSize :
    Careful durable service settings (inDetail service settings (.stepSize symbol)) notes g
      fun r notes' g' => g' = g ∧ ∀ step, r = .ok step →
        ∃ filters : SymbolFilters, notes' = notes ++ [.listing symbol filters] ∧ step = filters.stepSize := by
  refine careful_await (fun _ _ _ hx => quiet hx) (fun _ _ => ⟨rfl, nofun⟩) fun filters => ⟨rfl, fun step hstep => ?_⟩
  cases hstep
  exact ⟨filters, rfl, rfl⟩

/-- A size is what the margin buys at a price that was read, in steps of a listing that was read. -/
theorem careful_size (margin leverage : Decimal) :
    Careful durable service settings ((size symbol margin leverage).expand (inDetail service settings))
      notes g fun r notes' g' => g' = g ∧ ∀ quantity price, r = .ok (some (quantity, price)) →
        ∃ mark ticker filters, notes' = notes ++ [.ticker symbol mark, .listing symbol filters] ∧
          mark.value = some ticker ∧ 0 < ticker.lastPrice ∧
          quantity.1 = truncDiv (margin * leverage / ticker.lastPrice) filters.stepSize * filters.stepSize := by
  rw [size, expand_bind, expand_perform]
  refine Protocol.Careful.bind (careful_lastPrice.mono ?_)
  rintro r notes₁ g₁ ⟨rfl, hr⟩
  cases r with
  | error e => exact ⟨rfl, nofun⟩
  | ok price =>
      cases price with
      | none => exact ⟨rfl, nofun⟩
      | some price =>
          obtain ⟨mark, ticker, rfl, hticker, rfl⟩ := hr price rfl
          dsimp only
          rw [expand_bind, expand_caught, expand_perform]
          refine Protocol.Careful.bind (Protocol.Careful.caught (careful_stepSize.mono ?_))
          rintro r notes₂ g₂ ⟨rfl, hr⟩
          cases r with
          | error e =>
              dsimp only
              split
              · exact ⟨rfl, nofun⟩
              · exact ⟨rfl, nofun⟩
          | ok step =>
              obtain ⟨filters, rfl, rfl⟩ := hr step rfl
              dsimp only
              split
              · exact ⟨rfl, nofun⟩
              next hpos =>
              split
              · exact ⟨rfl, nofun⟩
              next quantity hquantity =>
              split
              · refine ⟨rfl, fun q price h => ?_⟩
                cases h
                exact ⟨mark, ticker, filters, by rw [List.append_assoc]; rfl, hticker, not_le.mp hpos,
                  (floorToStep_ok.mp hquantity).2⟩
              · exact ⟨rfl, nofun⟩

theorem careful_venueState (notional : Decimal) :
    Careful durable service settings (venueState symbol notional) notes g
      fun r notes' g' => g' = g ∧ ∀ account maxLeverage realized, r = .ok (account, maxLeverage, realized) →
        notes' = notes ++ [.account account, .bracket maxLeverage, .realized realized] := by
  refine careful_await (fun _ _ _ hx => quiet hx) (fun _ _ => ⟨rfl, nofun⟩) fun account => ?_
  refine careful_await (fun _ _ _ hx => quiet hx) (fun _ _ => ⟨rfl, nofun⟩) fun maxLeverage => ?_
  refine careful_await (fun _ _ _ hx => quiet hx) (fun _ _ => ⟨rfl, nofun⟩) fun realized => ⟨rfl, ?_⟩
  rintro _ _ _ ⟨⟩
  rw [List.append_assoc, List.append_assoc]
  rfl

theorem careful_getSymbol :
    Careful durable service settings (perform (.getSymbol symbol)) notes g fun r notes' g' =>
      notes' = notes ++ note (.getSymbol symbol : Detailed (RecordStore durable) _) r ∧ g' = g :=
  careful_read fun _ _ _ hx => quiet hx

/-- A ruling is the risk engine's on what was read for it. -/
def RuledOn (service : TestnetExecutionService) (settings : RiskSettings) (request : TestnetOrderRequest)
    (symbol : String) (now : Timestamp) (read : List Reading) (answer : TestnetService.RiskVerdict) : Prop :=
  ∃ mark ticker volatility balance maxLeverage realized pending filters verdict,
    read = [.ticker symbol mark, .volatility volatility, .account ⟨some balance⟩, .bracket maxLeverage,
      .realized realized, .pending pending, .listing symbol filters] ∧
    mark.value = some ticker ∧
    evaluate (proposal request symbol) (TestnetRuling.accountView service settings balance realized pending)
      (TestnetRuling.marketView mark ticker.lastPrice volatility filters maxLeverage) settings.policy now =
        .ok verdict ∧
    answer.approved = verdict.approved ∧
    ∀ l ∈ answer.leverage.approvedLeverage, verdict.leverage.approvedLeverage = some l

theorem careful_ruleListed {request : TestnetOrderRequest} {now : Timestamp} {mark : Observation} {price : Decimal}
    {volatility : VolatilityMeasurement} {balance maxLeverage realized : Decimal} {pending : ReconciliationPending}
    {filters : SymbolFilters} :
    Careful durable service settings (ruleListed service settings request symbol now mark price volatility
        balance maxLeverage realized pending filters) notes g
      fun r notes' g' => g' = g ∧ ∀ answer detail, r = .ok (some answer, detail) → notes' = notes ∧ ∃ verdict,
        evaluate (proposal request symbol) (TestnetRuling.accountView service settings balance realized pending)
          (TestnetRuling.marketView mark price volatility filters maxLeverage) settings.policy now = .ok verdict ∧
        answer.approved = verdict.approved ∧
        ∀ l ∈ answer.leverage.approvedLeverage, verdict.leverage.approvedLeverage = some l := by
  unfold ruleListed
  split
  next verdict hverdict =>
    refine ⟨rfl, ?_⟩
    rintro _ _ ⟨⟩
    exact ⟨rfl, verdict, hverdict, rfl, fun l hl => asRead_leverage hl⟩
  next => exact ⟨rfl, fun _ _ h => nomatch h⟩

theorem careful_rule {request : TestnetOrderRequest} {record : OrderRecord} {now : Timestamp} :
    Careful durable service settings (rule service settings request record now) notes g
      fun r notes' g' => g' = g ∧ ∀ answer detail, r = .ok (some answer, detail) →
        ∃ read, notes' = notes ++ read ∧ RuledOn service settings request record.intent.symbol now read answer := by
  refine careful_await (fun _ _ _ hx => quiet hx) (fun _ _ => ⟨rfl, fun _ _ h => nomatch h⟩) fun mark => ?_
  cases hmark : mark.value with
  | none => exact ⟨rfl, fun _ _ h => nomatch h⟩
  | some ticker =>
      refine careful_await (fun _ _ _ hx => quiet hx) (fun _ _ => ⟨rfl, fun _ _ h => nomatch h⟩) fun volatility => ?_
      refine Protocol.Careful.bind (Protocol.Careful.caught ((careful_venueState _).mono ?_))
      rintro r notes₁ g₁ ⟨rfl, hr⟩
      cases r with
      | error e =>
          dsimp only
          split
          · exact ⟨rfl, fun _ _ h => nomatch h⟩
          · exact ⟨rfl, fun _ _ h => nomatch h⟩
      | ok state =>
          obtain ⟨⟨available⟩, maxLeverage, realized⟩ := state
          obtain rfl := hr _ _ _ rfl
          cases available with
          | none => exact ⟨rfl, fun _ _ h => nomatch h⟩
          | some balance =>
              refine careful_await quiet_pending (fun _ _ => ⟨rfl, fun _ _ h => nomatch h⟩) fun pending => ?_
              refine Protocol.Careful.bind (Protocol.Careful.caught (careful_getSymbol.mono ?_))
              rintro r notes₂ g₂ ⟨rfl, rfl⟩
              cases r with
              | error e =>
                  dsimp only
                  split
                  · exact ⟨rfl, fun _ _ h => nomatch h⟩
                  · exact ⟨rfl, fun _ _ h => nomatch h⟩
              | ok filters =>
                  refine careful_ruleListed.mono ?_
                  rintro r notes₃ g₃ ⟨rfl, hr⟩
                  refine ⟨rfl, fun answer detail hanswer => ?_⟩
                  obtain ⟨rfl, verdict, hverdict, happroved, hleverage⟩ := hr answer detail hanswer
                  refine ⟨_, ?_, mark, ticker, volatility, balance, maxLeverage, realized, pending, filters, verdict,
                    rfl, hmark, hverdict, happroved, hleverage⟩
                  simp only [note, List.append_assoc, List.cons_append, List.nil_append]

end Reads

section Submissions

variable {service settings} {α β : Type} {notes : List Reading} {t : Ticket} {request : TestnetOrderRequest}
  {record : OrderRecord} {now : Timestamp} {read : List Reading} {answer : TestnetService.RiskVerdict}
  {leverage : Decimal} {checksPerformed : List String}

theorem rejected_runs (hid : record.orderId = t.orderId) (code : RiskRejectionCode) (detail : String)
    (rejectionCode : Option RiskRejectionCode) (checksPerformed : List String) :
    Runs durable service settings (rejected record code detail now rejectionCode checksPerformed) notes
      (some t) := by
  unfold rejected
  rw [hid]
  apply runs_write fun r => withRiskRejection r code detail now
  · intro s p hp
    obtain ⟨r, hl, _, hputs⟩ := markRiskRejected_ok.mp hp
    exact ⟨r, hl, hputs⟩
  · exact fun _ => rfl
  · exact fun _ => rfl
  · intro _
    exact runs_get fun _ _ _ _ => trivial

omit [Runtime] in
theorem grounded_dispatch {d d' : Desk durable} {x : Dispatch} [Runtime] (hi : Grounded service settings d)
    (hx : ∃ g, Rests service settings g x) (hd : d'.dispatched = d.dispatched ++ [x]) :
    Grounded service settings d' := by
  intro y hy
  rw [hd, List.mem_append, List.mem_singleton] at hy
  rcases hy with hy | rfl
  · exact hi y hy
  · exact hx

/-- The order that goes out is one whose grounds its call has read. -/
theorem careful_submit (hrests : ∀ book, ∃ g, Rests service settings g ⟨notes, record, book⟩) :
    Careful durable service settings (perform (.base (.submit record))) notes (some t)
      fun _ notes' g' => notes' = notes ∧ g' = some t := by
  refine Protocol.Careful.perform fun d r d' hi hg hx => ?_
  obtain ⟨hbase, hdispatched⟩ := hx
  change d'.base = d.base.receive record r at hbase
  have ho : d'.base.orders = d.base.orders := by rw [hbase, Submission.receive_orders]
  refine ⟨some t, ⟨grounded_dispatch hi (hrests d.book) hdispatched, holds_of_eq (g := some t) hg ho,
    fun g' _ hh => holds_of_eq (g := g') hh ho, fun _ ha _ => ha⟩, ?_, rfl⟩
  cases r <;> exact List.append_nil _

theorem runs_clock {k : Timestamp → ServiceM (RecordStore durable) β} {g : Option Ticket}
    (hk : ∀ now, Runs durable service settings (k now) (notes ++ [.clock now]) g) :
    Runs durable service settings (perform .utcnow >>= k) notes g := by
  apply runs_bind
  rw [expand_perform]
  refine (careful_read (still_base (f := .utcnow) (fun (_ : World durable) _ _ hx => hx) fun _ _ => rfl)).mono ?_
  rintro _ notes' g' ⟨rfl, rfl⟩ now rfl
  exact hk now

theorem send_runs (hid : record.orderId = t.orderId)
    (hrests : ∀ book, ∃ g, Rests service settings g ⟨notes, record, book⟩) :
    Runs durable service settings (send record checksPerformed) notes (some t) := by
  unfold send
  apply runs_caught_bind
  rw [expand_perform]
  refine (careful_submit hrests).mono ?_
  rintro r notes' g' ⟨rfl, rfl⟩
  cases r with
  | error e =>
      dsimp only
      split
      · apply runs_clock
        intro now
        rw [hid]
        apply runs_write fun r => withUnknown r _ now
        · intro s p hp
          obtain ⟨r, hl, _, hputs⟩ := markUnknown_ok.mp hp
          exact ⟨r, hl, hputs⟩
        · exact fun _ => rfl
        · exact fun _ => rfl
        · intro _
          exact runs_get fun _ _ _ _ => trivial
      · trivial
  | ok view =>
      apply runs_clock
      intro now
      rw [hid]
      apply runs_write fun r => withAck r (view.venueOrderId.getD "") view.state now
      · intro s p hp
        obtain ⟨r, hl, _, hputs⟩ := applyVenueAck_ok.mp hp
        exact ⟨r, hl, hputs⟩
      · exact fun _ => rfl
      · exact fun _ => rfl
      · exact fun _ => trivial

theorem rests_of_sized {symbol : String} {mark : Observation} {ticker : Ticker} {filters : SymbolFilters}
    {book : VenueBook} (hsymbol : symbol = Runtime.upper request.symbol)
    (hruled : RuledOn service settings request symbol now read answer) (happroved : answer.approved = true)
    (hleverage : answer.leverage.approvedLeverage = some leverage)
    (hnotes : notes = [.asked request, .clock now] ++ read ++ [.ticker symbol mark, .listing symbol filters])
    (hticker : mark.value = some ticker) (hprice : 0 < ticker.lastPrice) (hrecord : record.intent.symbol = symbol)
    (hquantity : record.intent.quantity =
      truncDiv (request.margin * leverage / ticker.lastPrice) filters.stepSize * filters.stepSize) :
    ∃ g, Rests service settings g ⟨notes, record, book⟩ := by
  obtain ⟨mark₁, ticker₁, volatility, balance, maxLeverage, realized, pending, filters₁, verdict, rfl, hticker₁, hverdict,
    hsame, hleverages⟩ := hruled
  subst hsymbol
  refine ⟨⟨request, now, mark₁, ticker₁, volatility, balance, maxLeverage, realized, pending, filters₁, verdict, leverage,
    mark, ticker, filters⟩, hnotes, hrecord, ?_, ?_⟩
  · exact ⟨hticker₁, hverdict, hsame.symm.trans happroved, hleverages _ hleverage⟩
  · exact ⟨hticker, hprice, filters.step_pos, record.intent.quantity_pos, hquantity⟩

theorem place_runs {symbol : String} (hid : record.orderId = t.orderId) (hsymbol : t.symbol = Runtime.upper request.symbol)
    (hnotes : notes = [.asked request, .clock now] ++ read)
    (hruled : RuledOn service settings request t.symbol now read answer) (happroved : answer.approved = true)
    (hleverage : answer.leverage.approvedLeverage = some leverage) (hsame : symbol = t.symbol) :
    Runs durable service settings (place request symbol record leverage checksPerformed now) notes
      (some t) := by
  subst hsame
  unfold place
  apply runs_bind
  refine (careful_size request.margin leverage).mono ?_
  rintro r notes' g' ⟨rfl, hsize⟩ a rfl
  cases a with
  | none => exact rejected_runs hid _ _ _ _
  | some sized =>
      obtain ⟨quantity, price⟩ := sized
      obtain ⟨mark, ticker, filters, rfl, hticker, hprice, hquantity⟩ := hsize quantity price rfl
      dsimp only
      rw [hid]
      apply runs_get
      intro found hfid hfsymbol _
      apply runs_transact
      intro d d' a s hi hg hs ho hd
      obtain ⟨_, _, he⟩ := update_ok.mp hs
      cases he
      have hsized : ∀ q ∈ some quantity.1, (withExecution found quantity leverage now).intent.quantity = q := by
        rintro q ⟨⟩
        rfl
      have hnamed : (withExecution found quantity leverage now).orderId = t.orderId := hfid
      refine ⟨_, moves_put hi hnamed hfsymbol hsized ho hd, ?_⟩
      rw [Option.getD_some, hnamed]
      apply runs_write (t := ⟨t.orderId, t.symbol, some quantity.1⟩) fun r => withMove r .submitted now (some now)
      · intro s p hp
        obtain ⟨r, hl, _, hputs⟩ := move_ok.mp hp
        exact ⟨r, hl, hputs⟩
      · exact fun _ => rfl
      · exact fun _ => rfl
      intro _
      apply runs_get (t := ⟨t.orderId, t.symbol, some quantity.1⟩)
      intro stored hsid hssymbol hsquantity
      refine send_runs hsid fun book => ?_
      refine rests_of_sized hsymbol hruled happroved hleverage (by rw [hnotes]) hticker hprice hssymbol ?_
      exact (hsquantity quantity.1 rfl).trans hquantity

theorem careful_margin (symbol : String) {g : Option Ticket} :
    Careful durable service settings (Coroutine.expand (inDetail service settings) (do
      let _ ← perform (.setMarginMode symbol .isolated)
      perform (.marginMode symbol))) notes g fun _ notes' g' => notes' = notes ∧ g' = g := by
  rw [expand_bind]
  refine Protocol.Careful.bind ((careful_unnoted (f := .setMarginMode symbol .isolated) rfl
    (fun r => by cases r <;> rfl) (fun (_ : World durable) _ _ hx => hx) fun _ _ => rfl).mono ?_)
  rintro r notes' g' ⟨rfl, rfl⟩
  cases r with
  | error e => exact ⟨rfl, rfl⟩
  | ok _ =>
      exact careful_unnoted (f := .marginMode symbol) rfl (fun r => by cases r <;> rfl)
        (fun (_ : World durable) _ _ hx => hx) fun _ _ => rfl

section Confirmed

variable {symbol : String} (hid : record.orderId = t.orderId) (hsymbol : t.symbol = Runtime.upper request.symbol)
  (hnotes : notes = [.asked request, .clock now] ++ read)
  (hruled : RuledOn service settings request t.symbol now read answer) (happroved : answer.approved = true)
  (hleverage : answer.leverage.approvedLeverage = some leverage) (hsame : symbol = t.symbol)

include hid hsymbol hnotes hruled happroved hleverage hsame

theorem confirmMargin_runs : Runs durable service settings
    (confirmMargin request symbol record leverage checksPerformed now) notes (some t) := by
  unfold confirmMargin
  apply runs_caught_bind
  refine (careful_margin symbol).mono ?_
  rintro r notes' g' ⟨rfl, rfl⟩
  cases r with
  | error e =>
      dsimp only
      split
      · exact rejected_runs hid _ _ _ _
      · trivial
  | ok confirmed =>
      dsimp only
      split
      · exact rejected_runs hid _ _ _ _
      · exact place_runs hid hsymbol hnotes hruled happroved hleverage hsame

theorem confirmLeverage_runs : Runs durable service settings
    (confirmLeverage request symbol record leverage checksPerformed now) notes (some t) := by
  unfold confirmLeverage
  apply runs_caught_bind
  refine (careful_unnoted (f := .setLeverage symbol leverage) rfl (fun r => by cases r <;> rfl)
    (fun (_ : World durable) _ _ hx => hx) fun _ _ => rfl).mono ?_
  rintro r notes' g' ⟨rfl, rfl⟩
  cases r with
  | error e =>
      dsimp only
      split
      · exact rejected_runs hid _ _ _ _
      · trivial
  | ok applied =>
      dsimp only
      split
      · exact rejected_runs hid _ _ _ _
      next he =>
      rw [not_not.mp he]
      exact confirmMargin_runs hid hsymbol hnotes hruled happroved hleverage hsame

end Confirmed

theorem submitRuled_runs (hid : record.orderId = t.orderId) (hrecord : record.intent.symbol = t.symbol)
    (hsymbol : t.symbol = Runtime.upper request.symbol) (hnotes : notes = [.asked request, .clock now]) :
    Runs durable service settings (submitRuled request t.symbol record now) notes (some t) := by
  unfold submitRuled
  apply runs_bind
  rw [expand_perform]
  refine careful_rule.mono ?_
  rintro r notes' g' ⟨rfl, hr⟩ ⟨answer, detail⟩ rfl
  cases answer with
  | none => exact rejected_runs hid _ _ _ _
  | some answer =>
      obtain ⟨read, rfl, hruled⟩ := hr answer detail rfl
      rw [hrecord] at hruled
      dsimp only
      split
      · exact rejected_runs hid _ _ _ _
      next hrefused =>
      have happroved : answer.approved = true := by simpa using hrefused
      cases hleverage : answer.leverage.approvedLeverage with
      | none => exact rejected_runs hid _ _ _ _
      | some leverage =>
          exact confirmLeverage_runs hid hsymbol (by rw [hnotes]) hruled happroved hleverage rfl

theorem runs_createOrGet {intent : OrderIntent} {k : OrderRecord × Bool → ServiceM (RecordStore durable) β}
    (hreplay : ∀ record, Runs durable service settings (k (record, false)) notes none)
    (hcreated : ∀ orderId, Runs durable service settings (k (build orderId intent, true)) notes
      (some ⟨orderId, intent.symbol, none⟩)) :
    Runs durable service settings (perform (.createOrGet intent) >>= k) notes none := by
  apply runs_bind
  rw [expand_perform]
  refine Protocol.Careful.perform fun d r d' hi hg hx => ?_
  obtain ⟨⟨orderId, hid, hbase⟩, hdispatched⟩ := hx
  rw [show dispatches notes d.book (.createOrGet intent : TestnetService.Effect (RecordStore durable) _) = [] from rfl,
    List.append_nil] at hdispatched
  have hnote : note (.base (.createOrGet intent) : Detailed (RecordStore durable) _) r = [] := by cases r <;> rfl
  rw [hnote, List.append_nil]
  have hnone (ho : d'.base.orders = d.base.orders) : (protocol service settings).Moves none d none d' :=
    moves_still hi trivial ho hdispatched
  unfold Commits at hbase
  cases hstep : createOrGet orderId intent d.base.orders with
  | error e =>
      rw [hstep] at hbase
      obtain ⟨hr, hw⟩ := hbase
      refine ⟨none, hnone (by rw [hw]), fun a ha => ?_⟩
      rcases hr with rfl | ⟨message, rfl⟩
      · exact nomatch ha
      · exact nomatch ha
  | ok p =>
      rw [hstep] at hbase
      rcases addOrGet_ok.mp hstep with ⟨existing, _, _, he⟩ | ⟨_, _, _, he⟩
      · cases he
        have hsame : d'.base.orders = d.base.orders := by rcases hbase with ⟨_, hw⟩ | ⟨_, hw | hw⟩ <;> rw [hw] <;> rfl
        refine ⟨none, hnone hsame, fun a ha => ?_⟩
        rcases hbase with ⟨rfl, _⟩ | ⟨⟨message, rfl⟩, _⟩
        · cases ha
          exact hreplay existing
        · exact nomatch ha
      · cases he
        have hcreates (hw : d'.base = d.base.commit (d.base.orders.put (build orderId intent))) :
            (protocol service settings).Moves none d (some ⟨orderId, intent.symbol, none⟩) d' :=
          moves_create (r := build orderId intent) hi hid (by rw [hw]; rfl) hdispatched
        rcases hbase with ⟨rfl, hw⟩ | ⟨⟨message, rfl⟩, hw | hw⟩
        · refine ⟨_, hcreates hw, fun a ha => ?_⟩
          cases ha
          exact hcreated orderId
        · exact ⟨none, hnone (by rw [hw]), fun _ ha => nomatch ha⟩
        · exact ⟨_, hcreates hw, fun _ ha => nomatch ha⟩

/-- A call starts with nothing of its own, and what it sends rests on what it read. -/
theorem submit_runs (request : TestnetOrderRequest) :
    Runs durable service settings (submit service request) [.asked request] none := by
  unfold submit
  apply runs_clock
  intro now
  dsimp only
  split
  · trivial
  apply runs_caught_bind
  refine (careful_unnoted (f := .requireOneWayMode) rfl (fun r => by cases r <;> rfl)
    (fun (_ : World durable) _ _ hx => hx) fun _ _ => rfl).mono ?_
  rintro r notes' g' ⟨rfl, rfl⟩
  cases r with
  | error e => cases e <;> trivial
  | ok _ =>
      apply runs_createOrGet
      · exact fun _ => trivial
      · intro orderId
        apply runs_write (t := ⟨orderId, Runtime.upper request.symbol, none⟩) fun r => withMove r .validating now none
        · intro s p hp
          obtain ⟨r, hl, _, hputs⟩ := move_ok.mp hp
          exact ⟨r, hl, hputs⟩
        · exact fun _ => rfl
        · exact fun _ => rfl
        · exact fun _ => submitRuled_runs (t := ⟨orderId, Runtime.upper request.symbol, none⟩) rfl rfl rfl rfl

end Submissions

/-- The calls that are made: submissions, with whatever they ask. -/
def Submits (c : Coroutine (Noted Reading (Detailed (RecordStore durable))) ServiceError TestnetOrderResult) : Prop :=
  ∃ request, c = submission service settings request

variable {service settings}

/-- In every interleaving of submissions, every order that went out rests on what its call read. -/
theorem submits_grounded {orders : RecordStore durable} {book : VenueBook}
    {c : Desk durable × List (Coroutine (Noted Reading (Detailed (RecordStore durable))) ServiceError TestnetOrderResult)}
    (h : Reachable exec (Submits service settings) ⟨⟨orders, [], []⟩, book, []⟩ c) :
    Grounded service settings c.1 := by
  refine (protocol service settings).reachable_inv ?_ (fun _ hx => absurd hx List.not_mem_nil) h
  rintro c ⟨request, rfl⟩
  exact ⟨none, fun _ => trivial, fun _ => trivial, Protocol.Careful.safe (submit_runs request)⟩

/-- The verdict on what a call has read. -/
def verdictFor (service : TestnetExecutionService) (settings : RiskSettings) :
    List Reading → Option RiskEngine.RiskVerdict
  | .asked request :: .clock now :: .ticker symbol mark :: .volatility volatility :: .account ⟨some balance⟩ ::
      .bracket maxLeverage :: .realized realized :: .pending pending :: .listing _ filters :: _ =>
      mark.value.bind fun ticker => (evaluate (proposal request symbol)
        (TestnetRuling.accountView service settings balance realized pending)
        (TestnetRuling.marketView mark ticker.lastPrice volatility filters maxLeverage) settings.policy now).toOption
  | _ => none

theorem Rests.verdictFor_eq {x : Grounds} {y : Dispatch} (h : Rests service settings x y) :
    verdictFor service settings y.notes = some x.verdict := by
  rw [h.notes]
  change (x.mark.value.bind fun ticker => _) = _
  rw [h.ruled.priced, Option.bind_some, h.ruled.evaluated]
  rfl

section Examples

omit [Runtime] in
/-- The venue's account once an order was filled at a price. -/
def fills (price : Decimal) : {β : Type} → TestnetService.Effect (RecordStore true) β → VenueBook → VenueBook
  | _, .submit record, book =>
      { book with positions := book.positions.set record.intent.symbol (record.intent.quantity * price) }
  | _, _, book => book

/-- A venue where everything is granted and filled, at a price for each look at it. -/
def answers (price : List Reading → Decimal) : {β : Type} → Noted Reading (Detailed (RecordStore true)) β → Desk true →
    Except ServiceError β × Desk true
  | _, ⟨notes, .base f⟩, d =>
      ((grants (.ok Submission.filledView) f d.base).1,
        { base := (grants (.ok Submission.filledView) f d.base).2
          book := fills (price notes) f d.book
          dispatched := d.dispatched ++ dispatches notes d.book f })
  | _, ⟨notes, .getTicker _⟩, d =>
      (.ok { value := some { lastPrice := price notes }, status := .ok, source := "venue", ageSeconds := some 1,
             value_status := rfl }, d)
  | _, ⟨_, .measureVolatility _⟩, d => (.ok { status := .measured, atrPercent := some 2 }, d)
  | _, ⟨_, .accountIdentity⟩, d => (.ok ⟨some 1000⟩, d)
  | _, ⟨_, .leverageBracket _ _⟩, d => (.ok 20, d)
  | _, ⟨_, .sessionRealizedPnl⟩, d => (.ok d.book.realizedPnl, d)
  | _, ⟨_, .reconciliationPending⟩, d =>
      ((commit reconciliationPending d.base).1, { d with base := (commit reconciliationPending d.base).2 })
  | _, ⟨_, .getSymbol _⟩, d => (.ok RiskEnvelope.exampleFilters, d)

theorem exec_answers (price : List Reading → Decimal) {β : Type} (f : Noted Reading (Detailed (RecordStore true)) β)
    (d : Desk true) : exec f d (answers price f d).1 (answers price f d).2 := by
  obtain ⟨notes, f⟩ := f
  cases f with
  | base f => exact ⟨exec_grants _ f d.base, rfl⟩
  | reconciliationPending => exact ⟨commits_commit _ d.base, rfl⟩
  | _ => exact ⟨rfl, rfl⟩

def exampleSettings : RiskSettings where
  maxLeverage := 10
  maxOpenPositions := 1
  maxPositionNotional := 500
  maxPortfolioExposure := 1000
  maxDataAgeSeconds := 60
  manualEntryCooldownSeconds := 0
  maxAtrPercent := 5
  dailyProfitTarget := 20
  dailyLossLimit := -10

def exampleTestnet : TestnetExecutionService := ⟨"acct", true⟩

def emptyDesk (realized : Decimal) : Desk true := ⟨⟨empty, [], []⟩, ⟨.empty, realized⟩, []⟩

/-- The desk after one submission, run alone. -/
def afterSubmission (price : List Reading → Decimal) (request : TestnetOrderRequest) (d : Desk true) : Desk true :=
  ((submission exampleTestnet exampleSettings request).interp (answers price) d).2

def ReachableDesk (d d' : Desk true) : Prop := ∃ pool, Reachable exec (Submits exampleTestnet exampleSettings) d (d', pool)

theorem afterSubmission_reachable (price : List Reading → Decimal) (request : TestnetOrderRequest) {d d' : Desk true}
    (h : ReachableDesk d d') : ReachableDesk d (afterSubmission price request d') := by
  obtain ⟨pool, h⟩ := h
  exact ⟨_, reachable_interp _ _ (exec_answers price) h ⟨request, rfl⟩⟩

end Examples

end Aetheris.TestnetDesk
