import Aetheris.Lib.SoleRun
import Aetheris.PaperFunding

namespace Aetheris.PaperConversion

open Lib Mutation Coroutine Money Clock Enums Leverage RiskEngine RiskEnvelope OrderIdentity PaperRecords PaperGate
  PaperPricing PaperEngine PaperRuns PaperAccounts PaperOutcomes PaperAtomicity PaperService PaperWorld PaperApproval
  PaperSizing PaperFunding PaperTradingService

/-- Anything may be answered, and whatever else goes on in between, an engine call
answers as it does on some account. -/
def amid [Runtime] (config : PaperEngineConfig) : Semantics Effect ServiceError Unit
  | _, .call op, _, x, _ => ∃ r, x = answered ((op.answer config).run r).1
  | _, _, _, _, _ => True

/-- Where an accepted result comes from: an order that was filled before, or an approval and its prices. -/
inductive Origin
  | repeated (existing : PaperOrder)
  | approved (filters : SymbolFilters) (last price leverage : Decimal)

/-- The margin that is approved for a quantity, once it is worth its last price. -/
def approvedMargin (filters : SymbolFilters) (last leverage quantity : Decimal) : Decimal :=
  quantizeUsdt (truncated (some filters) last (quantizeUsdt (quantizeUsdt (quantity * last) * leverage)) / leverage)

/-- What the margin buys at its leverage stays below the first step past the quantity. -/
def Origin.Keeps (quantity : Decimal) : Origin → Prop
  | .repeated existing => existing.filledQuantity ≤ quantity
  | .approved filters last price leverage =>
      approvedMargin filters last leverage quantity * leverage / price <
        (⌊quantity / filters.stepSize⌋ + 1) * filters.stepSize

section Steps

theorem truncDiv_mul_le_iff {x y step : Decimal} (hstep : 0 < step) (hx : 0 ≤ x) :
    truncDiv x step * step ≤ y ↔ x < (⌊y / step⌋ + 1) * step := by
  rw [truncDiv, if_pos (div_nonneg hx hstep.le)]
  exact Lib.FixedPoint.floor_mul_le_iff hstep x y

end Steps

section Engine

variable {config : PaperEngineConfig} {now : Timestamp} {marks : Marks} {r : Repository} {request : SubmitOrderRequest}
  {symbol id : String} {entry : Entry} {leverage : LeverageDecision} {age : Option Decimal} {detail : Option String}
  {from_ : Provenance} {result : PaperOrderResult}

/-- An entry is filled with its quantity. -/
theorem openPosition_quantity
    (h : ((openPosition config request symbol id entry now leverage age marks detail from_).run r).1 = .ok result) :
    result.order.filledQuantity = entry.quantity := by
  rw [openPosition] at h
  obtain ⟨_, _, _, h⟩ := of_run_bind h
  obtain ⟨_, _, _, h⟩ := of_run_bind h
  obtain ⟨_, _, _, h⟩ := of_run_bind h
  obtain ⟨_, _, _, h⟩ := of_run_bind h
  obtain ⟨_, _, _, h⟩ := of_run_bind h
  obtain ⟨_, _, _, h⟩ := of_run_bind h
  obtain ⟨_, _, _, h⟩ := of_run_bind h
  obtain ⟨_, _, _, h⟩ := of_run_bind h
  obtain ⟨_, _, _, h⟩ := of_run_bind h
  obtain ⟨_, _, _, h⟩ := of_run_bind h
  obtain ⟨_, _, _, h⟩ := of_run_bind h
  cases h
  rfl

theorem replayed_order {existing : PaperOrder} {detail : String}
    (h : ((replayed config existing symbol detail now marks).run r).1 = .ok result) :
    result.order = { existing with idempotentReplay := true } := by
  rw [replayed] at h
  obtain ⟨_, _, _, h⟩ := of_run_bind h
  obtain ⟨_, _, _, h⟩ := of_run_bind h
  obtain ⟨_, _, _, h⟩ := of_run_bind h
  cases h
  rfl

variable [Runtime] {mark : MarkPrice} {filters : Option SymbolFilters} {paperEnabled : Bool} {checks : List String}
  {riskMax : Option Decimal}

/-- What is accepted repeats a filled order, or an entry was considered and is filled. -/
theorem submitOrder_accepted
    (h : ((PaperEngine.submitOrder config request now mark filters leverage paperEnabled marks detail checks
      riskMax).run r).1 = .ok result) (haccepted : result.accepted = true) :
    (∃ existing : PaperOrder, result.order = { existing with idempotentReplay := true }) ∨
      ∃ entry, decisionOn config r request now mark filters leverage paperEnabled = .ok entry ∧
        result.order.filledQuantity = entry.quantity := by
  cases hknown : repeated r request with
  | some existing =>
      obtain ⟨session, hsession, _⟩ := ensureSession_ok config now r
      rw [PaperEngine.submitOrder, run_bind_ok hsession] at h
      dsimp only at h
      rw [run_bind_ok (clientOrderIdOf_run request), run_bind_ok load_run, repeated_identified, hknown] at h
      exact .inl ⟨existing, replayed_order h⟩
  | none =>
      rw [submitOrder_decided _ _ _ _ _ _ _ _ _ _ _ hknown] at h
      cases hdecision : decisionOn config r request now mark filters leverage paperEnabled with
      | error e =>
          rw [hdecision] at h
          cases e with
          | refused refusal | ruled refusal =>
              rw [reject_unaccepted h] at haccepted
              cases haccepted
          | raised e => cases h
      | ok entry =>
          rw [hdecision] at h
          exact .inr ⟨entry, rfl, openPosition_quantity h⟩

end Engine

section Service

variable [Runtime] {config : PaperEngineConfig} {service : PaperTradingService} {request : SubmitOrderRequest}
  {requestedLeverage : Decimal} {origin : String} {quantity : Decimal} {result : PaperOrderResult}

/-- How a submission of the service came to its result. -/
def Came (config : PaperEngineConfig) (service : PaperTradingService) (request : SubmitOrderRequest)
    (requestedLeverage : Decimal) (origin : String) (result : PaperOrderResult) : Origin → Prop
  | .repeated existing => result.order = { existing with idempotentReplay := true }
  | .approved filters last price leverage => ∃ now mark view volatility listed verdict source,
      evaluate (proposal request (Runtime.upper request.symbol) mark requestedLeverage) view
        (marketView mark volatility listed) (service.policy origin) now = .ok verdict ∧
      verdict.approved = true ∧ verdict.leverage.approvedLeverage = some leverage ∧ listed.filters = filters ∧
      mark.lastPrice = some last ∧ fillPrice mark (request.side = .buy) config.slippageBps = .ok (price, source)

/-- Filled with no more than was asked for exactly if its origin keeps to it. -/
def Settled (config : PaperEngineConfig) (service : PaperTradingService) (request : SubmitOrderRequest)
    (requestedLeverage : Decimal) (origin : String) (quantity : Decimal) (result : PaperOrderResult) : Prop :=
  ∃ how, Came config service request requestedLeverage origin result how ∧
    (result.order.filledQuantity ≤ quantity ↔ how.Keeps quantity)

theorem settled_of_repeated {existing : PaperOrder} (h : result.order = { existing with idempotentReplay := true }) :
    Settled config service request requestedLeverage origin quantity result := by
  refine ⟨.repeated existing, h, ?_⟩
  rw [h]
  exact Iff.rfl

theorem approved_settled {now : Timestamp} {mark : MarkPrice} {view : RiskAccountView}
    {volatility : VolatilityMeasurement} {listed : Listing} {marks : Marks} {verdict : RiskVerdict} {r : Repository}
    (hmargin : request.margin = none) (hquantity : request.quantity = some quantity)
    (hverdict : evaluate (proposal request (Runtime.upper request.symbol) mark requestedLeverage) view
      (marketView mark volatility listed) (service.policy origin) now = .ok verdict)
    (happroved : verdict.approved = true)
    (h : ((approvedCall service request now mark listed marks verdict).answer config |>.run r).1 = .ok result)
    (haccepted : result.accepted = true) :
    Settled config service request requestedLeverage origin quantity result := by
  rcases submitOrder_accepted h haccepted with ⟨existing, horder⟩ | ⟨entry, hdecision, hfilled⟩
  · exact settled_of_repeated horder
  obtain ⟨last, l, notional, hcleared⟩ := evaluate_cleared hverdict happroved
  have hlast : mark.lastPrice = some last := hcleared.data.2.1
  have hproposed : proposedMargin request mark = quantizeUsdt (quantity * last) := by
    rw [proposedMargin, hmargin, hquantity, hlast]
  have hsized := considerOrder_sized hdecision
  have hconsidered := considerOrder_ok hdecision
  have hl : entry.approvedLeverage = l := Option.some.inj (hconsidered.approved.symm.trans hcleared.approvedLeverage)
  have hm : quantizeUsdt (notional / l) = approvedMargin listed.filters last l quantity := by
    rw [approvedMargin, ← hproposed, hcleared.sized]
    rfl
  obtain ⟨_, _, hpermitted⟩ := hcleared.leverage
  have hlnonneg : 0 ≤ l := le_trans (by norm_num [leverageMin]) hpermitted.min
  have hpaid : 0 ≤ quantizeUsdt (notional / l) :=
    (considerOrder_margin_pos hdecision _ hcleared.approvedMargin).le
  have hbought : entry.quantity =
      truncDiv (quantizeUsdt (notional / l) * l / entry.price) listed.filters.stepSize * listed.filters.stepSize := by
    have hresolved := hsized.quantity
    rw [hl] at hresolved
    exact ((resolveQuantity_listed (f := listed.filters) hcleared.approvedMargin rfl).mp hresolved).2.1
  refine ⟨.approved listed.filters last entry.price l, ⟨now, mark, view, volatility, listed, verdict, entry.priceSource,
    hverdict, happroved, hcleared.approvedLeverage, rfl, hlast, hsized.price⟩, ?_⟩
  rw [hfilled, hbought, truncDiv_mul_le_iff listed.filters.step_pos
    (div_nonneg (mul_nonneg hpaid hlnonneg) hconsidered.price_pos.le), hm]
  exact Iff.rfl

theorem unlisted_settled {now : Timestamp} {mark : MarkPrice} {detail : String} {marks : Marks} {r : Repository}
    (h : ((PaperEngine.submitOrder config request now mark none (unresolvableLeverage detail) service.paperEnabled marks
      none [] none).run r).1 = .ok result) (haccepted : result.accepted = true) :
    Settled config service request requestedLeverage origin quantity result := by
  rcases submitOrder_accepted h haccepted with ⟨existing, horder⟩ | ⟨entry, hdecision, _⟩
  · exact settled_of_repeated horder
  · have happroved := (considerOrder_ok hdecision).approved
    cases happroved

theorem replay_settled {id : String} {now : Timestamp} {marks : Marks} {r : Repository}
    (h : ((PaperEngine.replay config id now marks).run r).1 = .ok (some result)) :
    Settled config service request requestedLeverage origin quantity result := by
  rw [PaperEngine.replay, run_bind_ok load_run] at h
  cases hknown : r.state.ordersByClientId.get? id with
  | none =>
      rw [hknown] at h
      cases h
  | some existing =>
      rw [hknown] at h
      obtain ⟨_, t, _, h⟩ := of_run_bind h
      rw [map_eq_pure_bind] at h
      obtain ⟨result', _, hreplayed, h⟩ := of_run_bind h
      cases h
      exact settled_of_repeated (replayed_order (congrArg Prod.fst hreplayed))

/-- What an accepted submission must show, however it is answered. -/
def Shows (config : PaperEngineConfig) (service : PaperTradingService) (request : SubmitOrderRequest)
    (requestedLeverage : Decimal) (origin : String) (quantity : Decimal) (x : Except ServiceError PaperOrderResult)
    (_ : Unit) : Prop :=
  ∀ result, x = .ok result → result.accepted = true →
    Settled config service request requestedLeverage origin quantity result

theorem shows_error {e : ServiceError} : Shows config service request requestedLeverage origin quantity (.error e) () :=
  fun _ h => nomatch h

/-- After what is answered at random the submission goes on, or it fails. -/
theorem always_amid {α : Type} {c : ServiceM α} {k : α → ServiceM PaperOrderResult}
    (hk : ∀ a, (k a).Always (amid config) () (Shows config service request requestedLeverage origin quantity)) :
    (c >>= k).Always (amid config) () (Shows config service request requestedLeverage origin quantity) :=
  Always.after (fun _ _ => shows_error) fun a _ => hk a

theorem always_submitRuled {now : Timestamp} {mark : MarkPrice} {view : RiskAccountView}
    {volatility : VolatilityMeasurement} {listed : Listing} (marks : Marks) {verdict : RiskVerdict}
    (hmargin : request.margin = none) (hquantity : request.quantity = some quantity)
    (hverdict : evaluate (proposal request (Runtime.upper request.symbol) mark requestedLeverage) view
      (marketView mark volatility listed) (service.policy origin) now = .ok verdict) :
    (service.submitRuled request (Runtime.upper request.symbol) now mark listed marks verdict).Always (amid config) ()
      (Shows config service request requestedLeverage origin quantity) := by
  rw [submitRuled]
  split
  next happroved =>
    refine Always.bind (Always.perform fun x w' hx => ?_)
    cases x with
    | error e => exact shows_error
    | ok outcome =>
        obtain ⟨r, hx⟩ := hx
        have hshows : Shows config service request requestedLeverage origin quantity (.ok outcome) () := by
          intro result hresult haccepted
          cases hresult
          exact approved_settled hmargin hquantity hverdict happroved (answered_ok hx) haccepted
        dsimp only
        split
        · exact Always.bind (Always.perform fun x w' _ => by
            cases x with
            | ok u => exact hshows
            | error e => exact shows_error)
        · exact hshows
  · split
    next code _ =>
      refine Always.perform fun x w' hx => ?_
      obtain ⟨r, hx⟩ := hx
      cases x with
      | error e => exact shows_error
      | ok result =>
          intro result' hresult haccepted
          cases hresult
          rw [refuse_unaccepted (answered_ok hx)] at haccepted
          cases haccepted
    · exact shows_error

theorem always_submitUnlisted {now : Timestamp} {marks : Marks} (problem : String) :
    (service.submitUnlisted request (Runtime.upper request.symbol) now marks problem).Always (amid config) ()
      (Shows config service request requestedLeverage origin quantity) := by
  refine Always.perform fun x w' hx => ?_
  obtain ⟨r, hx⟩ := hx
  cases x with
  | error e => exact shows_error
  | ok result =>
      intro result' hresult haccepted
      cases hresult
      exact unlisted_settled (answered_ok hx) haccepted

theorem always_submitListed {now : Timestamp} (marks : Marks) (hmargin : request.margin = none)
    (hquantity : request.quantity = some quantity) (listed : Listing) :
    (service.submitListed request requestedLeverage origin (Runtime.upper request.symbol) now marks listed).Always
      (amid config) () (Shows config service request requestedLeverage origin quantity) := by
  refine always_amid fun mark => always_amid fun volatility => always_amid fun account => ?_
  refine always_amid fun pending => always_amid fun view => ?_
  cases hverdict : evaluate (proposal request (Runtime.upper request.symbol) mark requestedLeverage) view
      (marketView mark volatility listed) (service.policy origin) now with
  | error e => exact shows_error
  | ok verdict => exact always_submitRuled marks hmargin hquantity hverdict

theorem always_submitLocked (hmargin : request.margin = none) (hquantity : request.quantity = some quantity) :
    (service.submitLocked request requestedLeverage origin).Always (amid config) ()
      (Shows config service request requestedLeverage origin quantity) := by
  refine always_amid fun now => always_amid fun marks => ?_
  cases hid : request.clientOrderId with
  | none =>
      simp only [submitLocked.replayKnown, hid]
      refine always_amid (c := PaperTradingService.metadata (Runtime.upper request.symbol)) fun found => ?_
      cases found with
      | error problem => exact always_submitUnlisted problem
      | ok listed => exact always_submitListed marks hmargin hquantity listed
  | some id =>
      simp only [submitLocked.replayKnown, hid]
      refine Always.bind (Always.perform fun x w' hx => ?_)
      obtain ⟨r, hx⟩ := hx
      cases x with
      | error e => exact shows_error
      | ok known =>
          cases known with
          | none =>
              refine always_amid (c := PaperTradingService.metadata (Runtime.upper request.symbol)) fun found => ?_
              cases found with
              | error problem => exact always_submitUnlisted problem
              | ok listed => exact always_submitListed marks hmargin hquantity listed
          | some result =>
              intro result' hresult haccepted
              cases hresult
              exact replay_settled (answered_ok hx)

theorem exec_amid {β : Type} {f : Effect β} {w w' : World} {x : Except ServiceError β} (h : exec config f w x w') :
    amid config f () x () := by
  cases f with
  | call op => exact ⟨w.repository, h.1⟩
  | _ => trivial

/-- A run of the process is one of these runs. -/
theorem runs_amid {α : Type} {c : ServiceM α} {w w' : World} {x : Except ServiceError α}
    (h : c.Runs (exec config) w x w') : c.Runs (amid config) () x () := by
  induction c generalizing w with
  | ret a => exact ⟨h.1, rfl⟩
  | raise e => exact ⟨h.1, rfl⟩
  | await f k ih =>
      obtain ⟨y, w₁, hy, hk⟩ := h
      exact ⟨y, (), exec_amid hy, ih y hk⟩

end Service

/-- A tenth of a coin at the price of 100, with a stop at two per cent. -/
def aTenth : SubmitOrderRequest :=
  { symbol := "BTCUSDT", side := .buy, quantity := some (1 / 10), stopLossPercent := some 2 }

def submitted (requestedLeverage : Decimal) : Except ServiceError PaperOrderResult × World :=
  (@PaperTradingService.submitOrder exampleService referenceRuntime aTenth requestedLeverage "manual").interp
    (@Venue.answers referenceRuntime exampleConfig (quoted 0 99)) (booted 1000 0 .inMemory)

theorem submitted_runs {requestedLeverage : Decimal} {result : PaperOrderResult}
    (h : (submitted requestedLeverage).1 = .ok result) :
    (@PaperTradingService.submitOrder exampleService referenceRuntime aTenth requestedLeverage "manual").Runs
      (@amid referenceRuntime exampleConfig) () (.ok result) () := by
  rw [← h]
  exact @runs_amid referenceRuntime _ _ _ _ _ _ (runs_interp (@exec_answers referenceRuntime exampleConfig (quoted 0 99)) _ _)

end Aetheris.PaperConversion
