import Aetheris.Lib.SoleRun
import Aetheris.TestnetDesk

namespace Aetheris.TestnetIncome

open Lib Coroutine Money Clock RiskEngine OrderRecords OrderIdentity TestnetService TestnetRuling
open PaperService (Observation VolatilityMeasurement)

/-- An entry of the account's income history, and the millisecond it was booked in. -/
structure IncomeEntry where
  incomeType : String
  income : Option Decimal
  time : Int

def incomeTypeRealizedPnl : String := "REALIZED_PNL"

def IncomeEntry.isRealizedPnl (entry : IncomeEntry) : Bool := entry.incomeType = incomeTypeRealizedPnl

/-- The venue's income endpoint. It reports the entries of a type from a time
on, oldest first, and no more than the limit of them. -/
structure IncomeEndpoint where
  answer (history : List IncomeEntry) (incomeType : String) (startTime : Int) (limit : Nat) : List IncomeEntry
  answer_eq : ∀ history incomeType startTime limit, answer history incomeType startTime limit =
    (history.filter (fun entry => entry.incomeType = incomeType && decide (startTime ≤ entry.time))).take limit

def total (entries : List IncomeEntry) : Decimal := (entries.filterMap IncomeEntry.income).sum

def incomeLimit : Nat := 1000

/-- How the runtime turns a time into whole milliseconds goes by floating point. -/
abbrev Millis := Timestamp → Int

def reported (endpoint : IncomeEndpoint) (toMillis : Millis) (since : Timestamp) (history : List IncomeEntry) :
    List IncomeEntry :=
  endpoint.answer history incomeTypeRealizedPnl (toMillis since) incomeLimit

def sessionRealizedPnl (endpoint : IncomeEndpoint) (toMillis : Millis) (since : Timestamp)
    (history : List IncomeEntry) : Decimal :=
  total (reported endpoint toMillis since history)

/-- The account at the venue, and since when the running service counts. -/
structure Desk where
  now : Timestamp
  history : List IncomeEntry := []
  sessionStart : Option Timestamp := none

inductive Event
  | pass (microseconds : Nat)
  | book (incomeType : String) (income : Option Decimal)
  -- a process starts, and what ran before it has stopped
  | start

def step (d : Desk) : Event → Desk
  | .pass microseconds => { d with now := d.now + microseconds }
  | .book incomeType income => { d with history := d.history ++ [⟨incomeType, income, d.now / 1000⟩] }
  | .start => { d with sessionStart := some d.now }

def run (began : Timestamp) (events : List Event) : Desk := events.foldl step { now := began }

def startOfDay (t : Timestamp) : Timestamp := date t * day

def IncomeEntry.booked (entry : IncomeEntry) : Timestamp := entry.time * 1000

/-- The realised PnL booked from the start of the day up to now. -/
def ofDay (d : Desk) : List IncomeEntry :=
  d.history.filter fun entry =>
    entry.isRealizedPnl && (decide (startOfDay d.now ≤ entry.booked) && decide (entry.booked ≤ d.now))

/-- What is reported of the days before. -/
def foreign (endpoint : IncomeEndpoint) (toMillis : Millis) (since : Timestamp) (d : Desk) : List IncomeEntry :=
  (reported endpoint toMillis since d.history).filter fun entry => !decide (startOfDay d.now ≤ entry.booked)

/-- What is not reported of the day: what was booked before the service
counts, and what is past the limit. -/
def missed (toMillis : Millis) (since : Timestamp) (d : Desk) : List IncomeEntry :=
  (d.history.filter (fun entry => entry.isRealizedPnl && !decide (toMillis since ≤ entry.time)) ++
    (d.history.filter (fun entry => entry.isRealizedPnl && decide (toMillis since ≤ entry.time))).drop incomeLimit).filter
      fun entry => decide (startOfDay d.now ≤ entry.booked)

section Totals

theorem total_append (xs ys : List IncomeEntry) : total (xs ++ ys) = total xs + total ys := by
  rw [total, List.filterMap_append, List.sum_append]
  rfl

theorem total_partition (p : IncomeEntry → Bool) (xs : List IncomeEntry) :
    total (xs.filter p) + total (xs.filter fun entry => !p entry) = total xs := by
  rw [← total_append]
  exact ((List.filter_append_perm p xs).filterMap _).sum_eq

theorem total_split (a q p : IncomeEntry → Bool) (xs : List IncomeEntry) :
    total ((xs.filter fun entry => a entry && q entry).filter p) +
      total ((xs.filter fun entry => a entry && !q entry).filter p) = total ((xs.filter a).filter p) := by
  rw [← total_partition q ((xs.filter a).filter p)]
  have hand : ∀ x y z : Bool, (x && (y && z)) = (z && (x && y)) := by decide
  simp only [List.filter_filter, hand]

end Totals

theorem booked_by_now (began : Timestamp) (events : List Event) :
    ∀ entry ∈ (run began events).history, entry.booked ≤ (run began events).now := by
  have hstep : ∀ (d : Desk) event, (∀ entry ∈ d.history, entry.booked ≤ d.now) →
      ∀ entry ∈ (step d event).history, entry.booked ≤ (step d event).now := by
    intro d event h
    cases event with
    | pass microseconds => exact fun entry he => (h entry he).trans (by simp [step])
    | book incomeType income =>
        intro entry he
        rcases List.mem_append.mp he with he | he
        · exact h entry he
        · obtain rfl := List.mem_singleton.mp he
          change d.now / 1000 * 1000 ≤ d.now
          exact Int.ediv_mul_le d.now (by decide)
    | start => exact h
  have hrun : ∀ (events : List Event) (d : Desk), (∀ entry ∈ d.history, entry.booked ≤ d.now) →
      ∀ entry ∈ (events.foldl step d).history, entry.booked ≤ (events.foldl step d).now := by
    intro events
    induction events with
    | nil => exact fun d h => h
    | cons event rest ih => exact fun d h => ih (step d event) (hstep d event h)
  exact hrun events _ fun entry he => absurd he List.not_mem_nil

/-- The figure and the day's total differ by what is reported of other days and what the day lacks. -/
theorem sessionRealizedPnl_eq (endpoint : IncomeEndpoint) (toMillis : Millis) (since : Timestamp) {d : Desk}
    (h : ∀ entry ∈ d.history, entry.booked ≤ d.now) :
    sessionRealizedPnl endpoint toMillis since d.history + total (missed toMillis since d) =
      total (ofDay d) + total (foreign endpoint toMillis since d) := by
  have hreported : reported endpoint toMillis since d.history =
      (d.history.filter (fun entry => entry.isRealizedPnl && decide (toMillis since ≤ entry.time))).take incomeLimit :=
    endpoint.answer_eq ..
  have hday : ofDay d =
      (d.history.filter IncomeEntry.isRealizedPnl).filter fun entry => decide (startOfDay d.now ≤ entry.booked) := by
    rw [List.filter_filter]
    refine List.filter_congr fun entry he => ?_
    rw [decide_eq_true (h entry he), Bool.and_true, Bool.and_comm]
  have hsplit := total_split IncomeEntry.isRealizedPnl (fun entry => decide (toMillis since ≤ entry.time))
    (fun entry => decide (startOfDay d.now ≤ entry.booked)) d.history
  have hpage := total_partition (fun entry => decide (startOfDay d.now ≤ entry.booked))
    (reported endpoint toMillis since d.history)
  rw [← List.take_append_drop incomeLimit (d.history.filter fun entry => entry.isRealizedPnl &&
    decide (toMillis since ≤ entry.time)), List.filter_append, total_append, ← hreported] at hsplit
  rw [sessionRealizedPnl, missed, List.filter_append, total_append, hday, ← hsplit, ← hpage, foreign]
  ring

section Ruling

variable {σ : Type} [Runtime] {endpoint : IncomeEndpoint} {toMillis : Millis} {since : Timestamp} {d : Desk}
  {service : TestnetExecutionService} {settings : RiskSettings} {request : TestnetOrderRequest} {record : OrderRecord}
  {now : Timestamp}

omit [Runtime] in
/-- The rest of what the ruling reads may be anything, and so may an error. -/
def reading (endpoint : IncomeEndpoint) (toMillis : Millis) : Semantics (Detailed σ) ServiceError Desk
  | _, .sessionRealizedPnl, d, r, d' =>
      (∀ pnl, r = .ok pnl → ∃ since, d.sessionStart = some since ∧
        pnl = sessionRealizedPnl endpoint toMillis since d.history) ∧ d' = d
  | _, _, d, _, d' => d' = d

/-- The ruling ends as the risk engine does on an account that has realised this much. -/
def Handed (service : TestnetExecutionService) (settings : RiskSettings) (request : TestnetOrderRequest)
    (record : OrderRecord) (now : Timestamp) (realized : Decimal)
    (r : Except ServiceError (Option TestnetService.RiskVerdict × String)) : Prop :=
  ∃ (mark : Observation) (price : Decimal) (volatility : VolatilityMeasurement) (balance maxLeverage : Decimal)
    (pending : OrderEngine.ReconciliationPending) (filters : SymbolFilters),
    (ruleListed service settings request record.intent.symbol now mark price volatility balance maxLeverage realized
      pending filters : DetailedM σ _) = finished r

/-- No verdict, or one on the account as the running service reads it. -/
def Rules (σ : Type) (endpoint : IncomeEndpoint) (toMillis : Millis) (d : Desk) (service : TestnetExecutionService)
    (settings : RiskSettings) (request : TestnetOrderRequest) (record : OrderRecord) (now : Timestamp)
    (r : Except ServiceError (Option TestnetService.RiskVerdict × String)) : Prop :=
  ∀ verdict detail, r = .ok (some verdict, detail) → ∃ since, d.sessionStart = some since ∧
    Handed (σ := σ) service settings request record now (sessionRealizedPnl endpoint toMillis since d.history) r

omit [Runtime] in
theorem always_read {α β : Type} {f : Detailed σ α} {k : α → DetailedM σ β}
    {post : Except ServiceError β → Desk → Prop} (hf : ∀ r d', reading endpoint toMillis f d r d' → d' = d)
    (hraise : ∀ e, post (.error e) d) (h : ∀ a, (k a).Always (reading endpoint toMillis) d post) :
    (perform f >>= k).Always (reading endpoint toMillis) d post := by
  refine Always.bind (Always.perform fun r d' hx => ?_)
  rw [hf r d' hx]
  cases r with
  | error e => exact hraise e
  | ok a => exact h a

omit [Runtime] in
theorem venueState_always (symbol : String) (notional : Decimal) :
    (venueState (σ := σ) symbol notional).Always (reading endpoint toMillis) d fun r d' => d' = d ∧
      ∀ account maxLeverage realized, r = .ok (account, maxLeverage, realized) → ∃ since, d.sessionStart = some since ∧
        realized = sessionRealizedPnl endpoint toMillis since d.history := by
  refine always_read (fun _ _ hx => hx) (fun _ => ⟨rfl, nofun⟩) fun account => ?_
  refine always_read (fun _ _ hx => hx) (fun _ => ⟨rfl, nofun⟩) fun maxLeverage => ?_
  refine Always.bind (Always.perform ?_)
  rintro r d' ⟨hpnl, rfl⟩
  cases r with
  | error e => exact ⟨rfl, nofun⟩
  | ok realized =>
      refine ⟨rfl, fun account' maxLeverage' realized' he => ?_⟩
      cases he
      exact hpnl realized rfl

theorem rules_error (e : ServiceError) :
    Rules σ endpoint toMillis d service settings request record now (.error e) := by
  rintro _ _ ⟨⟩

theorem rules_none (detail : String) :
    Rules σ endpoint toMillis d service settings request record now (.ok (none, detail)) := by
  rintro _ _ ⟨⟩

theorem ruleListed_finished (service : TestnetExecutionService) (settings : RiskSettings)
    (request : TestnetOrderRequest) (symbol : String) (now : Timestamp) (mark : Observation) (price : Decimal)
    (volatility : VolatilityMeasurement) (balance maxLeverage realized : Decimal)
    (pending : OrderEngine.ReconciliationPending) (filters : SymbolFilters) :
    ∃ r, (ruleListed service settings request symbol now mark price volatility balance maxLeverage realized pending
      filters : DetailedM σ _) = finished r := by
  unfold ruleListed
  split
  · exact ⟨.ok _, rfl⟩
  · exact ⟨.error _, rfl⟩

omit [Runtime] in
theorem always_finished {α : Type} {r : Except ServiceError α} {post : Except ServiceError α → Desk → Prop}
    (h : post r d) : (finished r : DetailedM σ α).Always (reading endpoint toMillis) d post := by
  cases r <;> exact h

/-- What the risk engine is handed is the figure, whatever else is read. -/
theorem rule_hands : (rule (σ := σ) service settings request record now).Always (reading endpoint toMillis) d
    fun r _ => Rules σ endpoint toMillis d service settings request record now r := by
  unfold TestnetRuling.rule
  refine always_read (fun _ _ hx => hx) (fun e => rules_error e) fun mark => ?_
  cases hmark : mark.value with
  | none => exact rules_none _
  | some ticker =>
      refine always_read (fun _ _ hx => hx) (fun e => rules_error e) fun volatility => ?_
      refine Always.bind (Always.caught ((venueState_always _ _).mono ?_))
      rintro r d' ⟨rfl, hrealized⟩
      cases r with
      | error e =>
          dsimp only
          split
          · exact rules_none _
          · exact rules_error e
      | ok state =>
          obtain ⟨account, maxLeverage, realized⟩ := state
          obtain ⟨since, hup, rfl⟩ := hrealized account maxLeverage realized rfl
          cases hbalance : account.availableBalance with
          | none =>
              dsimp only
              rw [hbalance]
              exact rules_none _
          | some balance =>
              dsimp only
              rw [hbalance]
              refine always_read (fun _ _ hx => hx) (fun e => rules_error e) fun pending => ?_
              refine Always.bind (Always.caught (Always.perform ?_))
              rintro r d' hx
              obtain rfl : d' = _ := hx
              cases r with
              | error e =>
                  dsimp only
                  split
                  · exact rules_none _
                  · exact rules_error e
              | ok filters =>
                  dsimp only
                  obtain ⟨r, hr⟩ := ruleListed_finished (σ := σ) service settings request record.intent.symbol now mark
                    ticker.lastPrice volatility balance maxLeverage (sessionRealizedPnl endpoint toMillis since _)
                    pending filters
                  rw [hr]
                  refine always_finished fun verdict detail he => ?_
                  exact ⟨since, hup, mark, ticker.lastPrice, volatility, balance, maxLeverage, pending, filters, hr⟩

/-- In every run of the process, the risk engine is handed the day's realised
PnL exactly where what is reported of the days before weighs as much as what
is not reported of the day. -/
theorem handed_the_days_iff (endpoint : IncomeEndpoint) (toMillis : Millis) (began : Timestamp) (events : List Event)
    (service : TestnetExecutionService) (settings : RiskSettings) (request : TestnetOrderRequest) (record : OrderRecord)
    (r : Except ServiceError (Option TestnetService.RiskVerdict × String)) (d' : Desk)
    (hrun : (rule (σ := σ) service settings request record (run began events).now).Runs (reading endpoint toMillis)
      (run began events) r d')
    (verdict : TestnetService.RiskVerdict) (detail : String) (hr : r = .ok (some verdict, detail)) :
    ∃ since, (run began events).sessionStart = some since ∧
      Handed (σ := σ) service settings request record (run began events).now
        (sessionRealizedPnl endpoint toMillis since (run began events).history) r ∧
      (sessionRealizedPnl endpoint toMillis since (run began events).history = total (ofDay (run began events)) ↔
        total (foreign endpoint toMillis since (run began events)) = total (missed toMillis since (run began events))) := by
  obtain ⟨since, hup, hhanded⟩ := rule_hands.of_runs hrun verdict detail hr
  have hdiffer := sessionRealizedPnl_eq endpoint toMillis since (booked_by_now began events)
  refine ⟨since, hup, hhanded, fun h => ?_, fun h => ?_⟩
  · rw [h] at hdiffer
    exact (add_left_cancel hdiffer).symm
  · rw [h] at hdiffer
    exact add_right_cancel hdiffer

end Ruling

section Examples

def documentedEndpoint : IncomeEndpoint :=
  ⟨fun history incomeType startTime limit =>
    (history.filter (fun entry => entry.incomeType = incomeType && decide (startTime ≤ entry.time))).take limit,
    fun _ _ _ _ => rfl⟩

def wholeMillis : Millis := fun t => t / 1000

/-- Everything that a ruling reads, of a market and an account where an order may be placed. -/
def reads : {β : Type} → Detailed Unit β → Desk → Except ServiceError β × Desk
  | _, .base _, d => (.error (.other ""), d)
  | _, .getTicker _, d =>
      (.ok { value := some { lastPrice := 100 }, status := .ok, source := "venue", ageSeconds := some 1,
             value_status := rfl }, d)
  | _, .measureVolatility _, d => (.ok { status := .measured, atrPercent := some 2 }, d)
  | _, .accountIdentity, d => (.ok ⟨some 1000⟩, d)
  | _, .leverageBracket _ _, d => (.ok 20, d)
  | _, .sessionRealizedPnl, d =>
      match d.sessionStart with
      | some since => (.ok (sessionRealizedPnl documentedEndpoint wholeMillis since d.history), d)
      | none => (.error (.other ""), d)
  | _, .reconciliationPending, d => (.ok ⟨0, "No orders are awaiting reconciliation."⟩, d)
  | _, .getSymbol _, d => (.ok RiskEnvelope.exampleFilters, d)

theorem reading_reads {β : Type} (f : Detailed Unit β) (d : Desk) :
    reading documentedEndpoint wholeMillis f d (reads f d).1 (reads f d).2 := by
  cases f with
  | sessionRealizedPnl =>
      unfold reads
      dsimp only
      split
      next since hup =>
        refine ⟨fun pnl he => ?_, rfl⟩
        cases he
        exact ⟨since, hup, rfl⟩
      next => exact ⟨nofun, rfl⟩
  | _ => rfl

def exampleRecord : OrderRecord :=
  @OrderEngine.build referenceRuntime "order"
    (@submitIntent referenceRuntime TestnetDesk.exampleTestnet Submission.exampleRequest "BTCUSDT" 0)

def exampleRuling (events : List Event) :
    Except ServiceError (Option TestnetService.RiskVerdict × String) × Desk :=
  (@rule Unit referenceRuntime TestnetDesk.exampleTestnet TestnetDesk.exampleSettings Submission.exampleRequest
    exampleRecord (run 0 events).now).interp reads (run 0 events)

theorem exampleRuling_runs (events : List Event) :
    (@rule Unit referenceRuntime TestnetDesk.exampleTestnet TestnetDesk.exampleSettings Submission.exampleRequest
      exampleRecord (run 0 events).now).Runs (reading documentedEndpoint wholeMillis) (run 0 events)
      (exampleRuling events).1 (exampleRuling events).2 :=
  runs_interp reading_reads _ _

def isVerdict : Except ServiceError (Option TestnetService.RiskVerdict × String) → Bool
  | .ok (some _, _) => true
  | _ => false

theorem exists_verdict {r : Except ServiceError (Option TestnetService.RiskVerdict × String)}
    (h : isVerdict r = true) : ∃ verdict detail, r = .ok (some verdict, detail) := by
  match r, h with
  | .ok (some verdict, detail), _ => exact ⟨verdict, detail, rfl⟩

/-- The service starts before the day's first loss, and is asked after it. -/
def steadyDay : List Event := [.start, .book incomeTypeRealizedPnl (some (-3))]

theorem handed_the_days_steady : ∃ since, (run 0 steadyDay).sessionStart = some since ∧
    @Handed Unit referenceRuntime TestnetDesk.exampleTestnet TestnetDesk.exampleSettings Submission.exampleRequest
      exampleRecord (run 0 steadyDay).now
      (sessionRealizedPnl documentedEndpoint wholeMillis since (run 0 steadyDay).history) (exampleRuling steadyDay).1 ∧
    (sessionRealizedPnl documentedEndpoint wholeMillis since (run 0 steadyDay).history = total (ofDay (run 0 steadyDay)) ↔
      total (foreign documentedEndpoint wholeMillis since (run 0 steadyDay)) =
        total (missed wholeMillis since (run 0 steadyDay))) := by
  obtain ⟨verdict, detail, hr⟩ := exists_verdict (r := (exampleRuling steadyDay).1) (by decide +kernel)
  exact @handed_the_days_iff Unit referenceRuntime _ _ _ _ _ _ _ _ _ _ (exampleRuling_runs steadyDay) verdict detail hr

/-- A loss, and an hour later a restart. -/
def restartedDay : List Event :=
  [.start, .book incomeTypeRealizedPnl (some (-100)), .pass 3600000000, .start]

/-- The restart restores the day's budget: of a hundred that were lost, none is counted. -/
theorem restart_restores_the_budget :
    ¬ ∀ (events : List Event) (verdict : TestnetService.RiskVerdict) (detail : String),
      (exampleRuling events).1 = .ok (some verdict, detail) → ∃ since, (run 0 events).sessionStart = some since ∧
        @Handed Unit referenceRuntime TestnetDesk.exampleTestnet TestnetDesk.exampleSettings Submission.exampleRequest
          exampleRecord (run 0 events).now
          (sessionRealizedPnl documentedEndpoint wholeMillis since (run 0 events).history) (exampleRuling events).1 ∧
        sessionRealizedPnl documentedEndpoint wholeMillis since (run 0 events).history = total (ofDay (run 0 events)) := by
  intro hclaim
  obtain ⟨verdict, detail, hr⟩ := exists_verdict (r := (exampleRuling restartedDay).1) (by decide +kernel)
  obtain ⟨since, hup, _, hfigure⟩ := hclaim restartedDay verdict detail hr
  obtain rfl : (3600000000 : Timestamp) = since := Option.some.inj hup
  exact absurd hfigure (by decide +kernel)

end Examples

end Aetheris.TestnetIncome
