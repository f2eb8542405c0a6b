import Aetheris.Lib.SoleRun
import Aetheris.TestnetDesk

namespace Aetheris.TestnetLeverage

open Lib Coroutine Money Clock Enums RiskEngine RiskEnvelope OrderRecords OrderStore OrderIdentity TestnetService
  TestnetRuling Transaction
open Leverage (leverageMin resolveLeverage)
open PaperService (Observation Ticker VolatilityMeasurement)

section Chain

/-- What the chain comes to where the venue's ceiling is known. -/
def resolved (requested exchangeMax : Decimal) : Option Decimal → Decimal
  | some ceiling => min (min requested exchangeMax) ceiling
  | none => leverageMin

/-- What is approved can be sent as it is. -/
def Whole (requested exchangeMax : Decimal) (ceiling : Option Decimal) : Prop :=
  ∃ n : ℤ, resolved requested exchangeMax ceiling = n

/-- The chain passes its minimum on as it is. -/
theorem resolveLeverage_value {request : Leverage.LeverageRequest} {exchange l : Decimal} {ceiling : Option Decimal}
    (h : (resolveLeverage (some request) (some exchange) ceiling true).approvedLeverage = some l) :
    l = resolved request.requestedLeverage exchange ceiling := by
  rcases Leverage.resolveLeverage_least h with ⟨rfl, hasked, hexchange, hrisk⟩ | ⟨_, _, hexchange, rfl, -, -, rfl⟩
  · cases ceiling with
    | none => rfl
    | some ceiling =>
        rw [resolved, hasked, min_eq_left (hexchange exchange rfl), min_eq_left (hrisk ceiling rfl)]
  · cases hexchange
    rfl

section Rulings

variable {proposal : RiskProposal} {account : RiskAccountView} {market : RiskMarketView} {policy : RiskPolicy}
  {now : Timestamp} {exchange l : Decimal}

theorem ruleLeverage_value {decision : Leverage.LeverageDecision} {s t : List String}
    (hexchange : market.exchangeMaxLeverage = some exchange)
    (h : ruleLeverage proposal account market policy s = .ok ((decision, l), t)) :
    decision.approvedLeverage = some l ∧
      l = resolved proposal.requestedLeverage exchange (derivedCeiling proposal account policy) := by
  simp only [ruleLeverage, check_bind, refuseWhen_bind, raising_bind, hexchange] at h
  obtain ⟨request, hrequest, _, h⟩ := h
  cases hl : (resolveLeverage (some request) (some exchange) (derivedCeiling proposal account policy)
      true).approvedLeverage with
  | none => simp only [hl, stop_ok] at h
  | some approved =>
      simp only [hl, pure_ok, Prod.mk.injEq] at h
      obtain ⟨⟨rfl, rfl⟩, _⟩ := h
      rw [← leverageRequest_ok hrequest]
      exact ⟨hl, resolveLeverage_value hl⟩

/-- What evaluate approves is the minimum of what was asked, the venue's ceiling and the derived one. -/
theorem evaluate_value [Runtime] {verdict : RiskEngine.RiskVerdict}
    (hexchange : market.exchangeMaxLeverage = some exchange)
    (h : evaluate proposal account market policy now = .ok verdict) (happroved : verdict.approved = true) :
    verdict.leverage.approvedLeverage =
      some (resolved proposal.requestedLeverage exchange (derivedCeiling proposal account policy)) := by
  unfold evaluate at h
  cases hrule : RiskEngine.rule proposal account market policy now [] with
  | error e =>
      rw [hrule] at h
      cases e with
      | refused =>
          cases h
          cases happroved
      | raised => cases h
  | ok r =>
      rw [hrule] at h
      cases h
      simp only [RiskEngine.rule, bind_ok] at hrule
      obtain ⟨_, _, _, _, _, _, _, _, _, _, _, _, _, _, _, ⟨decision, l⟩, _, hleverage, _, _, _, _, _, _, _, _, _,
        happrove⟩ := hrule
      obtain ⟨hl, hvalue⟩ := ruleLeverage_value hexchange hleverage
      simp only [approve, check_bind] at happrove
      cases happrove
      rw [← hvalue]
      exact hl

end Rulings

end Chain

/-- The whole number that is sent for a leverage. -/
def sentLeverage (leverage : Decimal) : ℤ := truncDiv leverage 1

/-- A new order gets the verdict, the venue echoes the leverage it is sent, and everything else is answered at random. -/
def approving {σ W : Type} (verdict : TestnetService.RiskVerdict) : Semantics (TestnetService.Effect σ) ServiceError W
  | _, .requireOneWayMode, _, x, _ => x = .ok ()
  | _, .createOrGet _, _, x, _ => ∃ record, x = .ok (record, true)
  | _, .rule _ _ _, _, x, _ => ∃ detail, x = .ok (some verdict, detail)
  | _, .setLeverage _ leverage, _, x, _ => x = .ok (sentLeverage leverage : Decimal)
  | _, _, _, _, _ => True

def mismatchDetail (applied approved : Decimal) : String :=
  let shownApplied := str applied
  let shownApproved := str approved
  s!"The venue applied {shownApplied}x where the risk engine approved " ++
    s!"{shownApproved}x. Refusing: an order placed at a leverage " ++ "risk never approved is not the order that was ruled on."

/-- Refused because the venue's leverage is not the one that was approved. -/
structure Mismatched (result : TestnetOrderResult) : Prop where
  refused : result.accepted = false
  code : result.rejectionCode = some .maxLeverage
  detail : ∃ applied approved, applied ≠ approved ∧ result.detail = mismatchDetail applied approved

theorem sentLeverage_eq_iff {leverage : Decimal} (hone : 1 ≤ leverage) :
    (sentLeverage leverage : Decimal) = leverage ↔ ∃ n : ℤ, leverage = n := by
  rw [sentLeverage, truncDiv, div_one, if_pos (by linarith)]
  constructor
  · exact fun h => ⟨_, h.symm⟩
  · rintro ⟨n, rfl⟩
    rw [Int.floor_intCast]

section Service

variable {σ W : Type} [OrderRepository σ] {verdict : TestnetService.RiskVerdict} {w : W} {request : TestnetOrderRequest}
  {symbol : String} {record : OrderRecord} {leverage : Decimal} {checks : List String} {now : Timestamp}

/-- A result, if there is one, is like this. -/
def Ends (p : TestnetOrderResult → Prop) (x : Except ServiceError TestnetOrderResult) (_ : W) : Prop :=
  ∀ result, x = .ok result → p result

theorem ends_ok {p : TestnetOrderResult → Prop} {result : TestnetOrderResult} (h : p result) :
    Ends p (.ok result) w := by
  intro result' hresult
  cases hresult
  exact h

theorem ends_error {p : TestnetOrderResult → Prop} {e : ServiceError} : Ends p (.error e) w := fun _ h => nomatch h

omit [OrderRepository σ] in
theorem always_after {α : Type} {p : TestnetOrderResult → Prop} {c : ServiceM σ α} {k : α → ServiceM σ TestnetOrderResult}
    (hk : ∀ a (w : W), (k a).Always (approving verdict) w (Ends p)) : (c >>= k).Always (approving verdict) w (Ends p) :=
  Always.after (fun _ _ => ends_error) hk

theorem always_rejected {p : TestnetOrderResult → Prop} {code : RiskRejectionCode} {detail : String}
    {rejectionCode : Option RiskRejectionCode}
    (h : ∀ stored, p { accepted := false, record := stored, detail := detail, rejectionCode := rejectionCode,
                       checksPerformed := checks }) :
    (rejected record code detail now rejectionCode checks : ServiceM σ _).Always (approving verdict) w (Ends p) :=
  always_after fun _ _ => always_after fun stored _ => ends_ok (h stored)

/-- What follows once the leverage agrees refuses nothing for it. -/
def Otherwise (result : TestnetOrderResult) : Prop := result.rejectionCode ≠ some .maxLeverage

theorem always_send : (send record checks : ServiceM σ _).Always (approving verdict) w (Ends Otherwise) := by
  refine always_after fun sent _ => ?_
  cases sent with
  | error e =>
      dsimp only
      split
      · exact always_after fun _ _ => always_after fun _ _ => always_after fun _ _ => ends_ok nofun
      · exact ends_error
  | ok view => exact always_after fun _ _ => always_after fun _ _ => ends_ok nofun

theorem always_place :
    (place request symbol record leverage checks now : ServiceM σ _).Always (approving verdict) w (Ends Otherwise) := by
  refine always_after fun sized _ => ?_
  cases sized with
  | none => exact always_rejected fun _ => by simp [Otherwise]
  | some sized =>
      refine always_after fun _ _ => always_after fun _ _ => always_after fun _ _ => always_after fun _ _ => ?_
      exact always_send

theorem always_confirmMargin : (confirmMargin request symbol record leverage checks now : ServiceM σ _).Always
    (approving verdict) w (Ends Otherwise) := by
  refine always_after fun confirmed _ => ?_
  cases confirmed with
  | error e =>
      dsimp only
      split
      · exact always_rejected fun _ => by simp [Otherwise]
      · exact ends_error
  | ok confirmed =>
      dsimp only
      split
      · exact always_rejected fun _ => by simp [Otherwise]
      · exact always_place

/-- The order is refused for its leverage exactly if that is no whole number. -/
theorem always_confirmLeverage (hone : 1 ≤ leverage) :
    (confirmLeverage request symbol record leverage checks now : ServiceM σ _).Always (approving verdict) w
      (Ends fun result => ¬ Mismatched result ↔ ∃ n : ℤ, leverage = n) := by
  refine Always.bind (Always.caught (Always.perform ?_))
  rintro r w' rfl
  dsimp only
  rw [← sentLeverage_eq_iff hone]
  split
  next hne =>
    refine always_rejected fun stored => iff_of_false (not_not.mpr ?_) hne
    exact ⟨rfl, rfl, _, _, hne, rfl⟩
  next heq =>
    refine always_confirmMargin.mono fun r w' hends result hresult => iff_of_true (fun h => ?_) (not_not.mp heq)
    exact hends result hresult h.code

end Service

section Submission

variable [Runtime] {σ W : Type} [OrderRepository σ] {service : TestnetExecutionService} {settings : RiskSettings}
  {request : TestnetOrderRequest} {w : W} {balance realized : Decimal} {pending : OrderEngine.ReconciliationPending}
  {mark : Observation} {price : Decimal} {volatility : VolatilityMeasurement} {filters : SymbolFilters}
  {maxLeverage : Decimal} {now : Timestamp} {verdict : RiskEngine.RiskVerdict}

theorem always_submitRuled {record : OrderRecord} {symbol : String} {at_ : Timestamp}
    (hverdict : evaluate (proposal request symbol) (accountView service settings balance realized pending)
      (marketView mark price volatility filters maxLeverage) settings.policy now = .ok verdict)
    (happroved : verdict.approved = true) :
    (submitRuled request symbol record at_ : ServiceM σ _).Always (approving (asRead verdict (evaluate_min hverdict))) w
      (Ends fun result => ¬ Mismatched result ↔ Whole request.requestedLeverage maxLeverage
        (derivedCeiling (proposal request symbol) (accountView service settings balance realized pending)
          settings.policy)) := by
  have hvalue := evaluate_value rfl hverdict happroved
  have hone := evaluate_min hverdict happroved _ (Option.mem_def.mpr hvalue)
  have hread : (asRead verdict (evaluate_min hverdict)).leverage.approvedLeverage = verdict.leverage.approvedLeverage :=
    if_pos happroved
  refine Always.bind (Always.perform ?_)
  rintro r w' ⟨detail, rfl⟩
  dsimp only
  rw [if_neg (by simpa [asRead] using happroved)]
  split
  next hnone =>
    rw [hread, hvalue] at hnone
    cases hnone
  next l hl =>
    rw [hread, hvalue] at hl
    cases hl
    exact always_confirmLeverage hone

theorem always_submit
    (hverdict : evaluate (proposal request (Runtime.upper request.symbol))
      (accountView service settings balance realized pending)
      (marketView mark price volatility filters maxLeverage) settings.policy now = .ok verdict)
    (happroved : verdict.approved = true) :
    (submit service request : ServiceM σ _).Always (approving (asRead verdict (evaluate_min hverdict))) w
      (Ends fun result => ¬ Mismatched result ↔ Whole request.requestedLeverage maxLeverage
        (derivedCeiling (proposal request (Runtime.upper request.symbol))
          (accountView service settings balance realized pending) settings.policy)) := by
  obtain ⟨_, _, _, hcleared⟩ := evaluate_cleared hverdict happroved
  have henabled : service.testnetEnabled = true := hcleared.authority.1
  refine always_after fun at_ w => ?_
  dsimp only
  rw [if_neg (by simp [henabled])]
  refine Always.bind (Always.caught (Always.perform ?_))
  rintro r w rfl
  refine Always.bind (Always.perform ?_)
  rintro r w ⟨record, rfl⟩
  dsimp only
  rw [if_neg (by simp)]
  exact always_after fun _ _ => always_submitRuled hverdict happroved

end Submission

/-- The venue takes the leverage as approved exactly if that is a whole number. -/
theorem leverage_applies_iff [Runtime] {σ W : Type} [OrderRepository σ] (service : TestnetExecutionService)
    (settings : RiskSettings) (request : TestnetOrderRequest) (balance realized : Decimal)
    (pending : OrderEngine.ReconciliationPending) (mark : Observation) (price : Decimal)
    (volatility : VolatilityMeasurement) (filters : SymbolFilters) (maxLeverage : Decimal) (now : Timestamp)
    (verdict : RiskEngine.RiskVerdict)
    (hverdict : evaluate (proposal request (Runtime.upper request.symbol))
      (accountView service settings balance realized pending)
      (marketView mark price volatility filters maxLeverage) settings.policy now = .ok verdict)
    (happroved : verdict.approved = true) (w w' : W) (result : TestnetOrderResult)
    (hrun : (submit service request : ServiceM σ _).Runs (approving (asRead verdict (evaluate_min hverdict))) w
      (.ok result) w') :
    ¬ Mismatched result ↔ Whole request.requestedLeverage maxLeverage
      (derivedCeiling (proposal request (Runtime.upper request.symbol))
        (accountView service settings balance realized pending) settings.policy) :=
  Always.of_runs (always_submit hverdict happroved) hrun result rfl

section Examples

open TestnetWorld TestnetDesk

def exampleMark : Observation where
  value := some { lastPrice := 100 }
  status := .ok
  source := "venue"
  ageSeconds := some 2
  value_status := by decide

/-- At ten times, with a stop at some distance. -/
def stopped (stopLossPercent : Decimal) : TestnetOrderRequest :=
  { Submission.exampleRequest with requestedLeverage := 10, stopLossPercent := stopLossPercent }

def evaluated (stopLossPercent : Decimal) : Except EvaluateError RiskEngine.RiskVerdict :=
  @evaluate referenceRuntime (proposal (stopped stopLossPercent) (referenceRuntime.upper "BTCUSDT"))
    (accountView exampleTestnet exampleSettings 1000 0 ⟨0, ""⟩)
    (marketView exampleMark 100 { status := .measured, atrPercent := some 2 } RiskEnvelope.exampleFilters 20)
    exampleSettings.policy 10

/-- The verdict as it is read, where there is one. -/
def ruling (stopLossPercent : Decimal) : TestnetService.RiskVerdict :=
  match h : evaluated stopLossPercent with
  | .ok verdict => asRead verdict (@evaluate_min referenceRuntime _ _ _ _ _ _ h)
  | .error _ => exampleVerdict

theorem ruling_of_ok {stopLossPercent : Decimal} {verdict : RiskEngine.RiskVerdict}
    (h : evaluated stopLossPercent = .ok verdict) :
    ruling stopLossPercent = asRead verdict (@evaluate_min referenceRuntime _ _ _ _ _ _ h) := by
  unfold ruling
  split
  next h' =>
    cases h.symm.trans h'
    rfl
  next h' => cases h.symm.trans h'

/-- A venue that sets the leverage it is sent, where all else is granted. -/
def echoes (verdict : TestnetService.RiskVerdict) :
    {β : Type} → TestnetService.Effect (RecordStore true) β → World true → Except ServiceError β × World true
  | _, .rule _ _ _, w => (.ok (some verdict, ""), w)
  | _, .setLeverage _ leverage, w => (.ok (sentLeverage leverage : Decimal), w)
  | _, .createOrGet intent, w => (.ok (@OrderEngine.build referenceRuntime (unusedOrderId w.orders) intent, true),
      (@grants referenceRuntime (.ok Submission.filledView) _ (.createOrGet intent) w).2)
  | _, f, w => @grants referenceRuntime (.ok Submission.filledView) _ f w

theorem approving_echoes (verdict : TestnetService.RiskVerdict) {β : Type}
    (f : TestnetService.Effect (RecordStore true) β) (w : World true) :
    approving verdict f w (echoes verdict f w).1 (echoes verdict f w).2 := by
  cases f with
  | createOrGet intent => exact ⟨_, rfl⟩
  | rule => exact ⟨_, rfl⟩
  | requireOneWayMode => rfl
  | setLeverage => rfl
  | _ => trivial

def startWorld : World true := ⟨RecordStore.empty, [], []⟩

def submitted (stopLossPercent : Decimal) : Except ServiceError TestnetOrderResult × World true :=
  (@submit _ _ referenceRuntime exampleTestnet (stopped stopLossPercent) : ServiceM (RecordStore true) _).interp
    (echoes (ruling stopLossPercent)) startWorld

theorem submitted_runs {stopLossPercent : Decimal} {verdict : RiskEngine.RiskVerdict} {result : TestnetOrderResult}
    (h : evaluated stopLossPercent = .ok verdict) (hresult : (submitted stopLossPercent).1 = .ok result) :
    (@submit _ _ referenceRuntime exampleTestnet (stopped stopLossPercent) : ServiceM (RecordStore true) _).Runs
      (approving (asRead verdict (@evaluate_min referenceRuntime _ _ _ _ _ _ h))) startWorld (.ok result)
      (submitted stopLossPercent).2 := by
  rw [← hresult, ← ruling_of_ok h]
  exact runs_interp (approving_echoes _) _ _

theorem leverage_applies_iff_ten : ∃ verdict result, ∃ h : evaluated 2 = .ok verdict,
    (@submit _ _ referenceRuntime exampleTestnet (stopped 2) : ServiceM (RecordStore true) _).Runs
      (approving (asRead verdict (@evaluate_min referenceRuntime _ _ _ _ _ _ h))) startWorld (.ok result)
      (submitted 2).2 ∧ result.accepted = true ∧
    (¬ Mismatched result ↔ Whole 10 20 (derivedCeiling (proposal (stopped 2) (referenceRuntime.upper "BTCUSDT"))
      (accountView exampleTestnet exampleSettings 1000 0 ⟨0, ""⟩) exampleSettings.policy)) := by
  have hevaluated : (evaluated 2).toOption.any (fun v => v.approved) = true := by decide +kernel
  have hsubmitted : (submitted 2).1.toOption.any (fun r => r.accepted) = true := by decide +kernel
  obtain ⟨verdict, hverdict, happroved⟩ := Raising.exists_ok hevaluated
  obtain ⟨result, hresult, haccepted⟩ := Raising.exists_ok hsubmitted
  have hrun := submitted_runs hverdict hresult
  exact ⟨verdict, result, hverdict, hrun, haccepted, @leverage_applies_iff referenceRuntime _ _ _ exampleTestnet
    exampleSettings (stopped 2) 1000 0 ⟨0, ""⟩ exampleMark 100 _ RiskEnvelope.exampleFilters 20 10 verdict hverdict
    happroved _ _ result hrun⟩

/-- Ten times is approved down to 8.33 times, and eight is sent. -/
theorem fraction_sent_whole : ¬ ∀ (service : TestnetExecutionService) (settings : RiskSettings)
    (request : TestnetOrderRequest) (balance realized : Decimal) (pending : OrderEngine.ReconciliationPending)
    (mark : Observation) (price : Decimal) (volatility : VolatilityMeasurement) (filters : SymbolFilters)
    (maxLeverage : Decimal) (now : Timestamp) (verdict : RiskEngine.RiskVerdict)
    (hverdict : @evaluate referenceRuntime (proposal request (referenceRuntime.upper request.symbol))
      (accountView service settings balance realized pending)
      (marketView mark price volatility filters maxLeverage) settings.policy now = .ok verdict),
    verdict.approved = true → ∀ (w w' : World true) (result : TestnetOrderResult),
    (@submit _ _ referenceRuntime service request : ServiceM (RecordStore true) _).Runs
      (approving (asRead verdict (@evaluate_min referenceRuntime _ _ _ _ _ _ hverdict))) w (.ok result) w' →
    ¬ Mismatched result := by
  intro hclaim
  have hevaluated : (evaluated 6).toOption.any (fun v => v.approved) = true := by decide +kernel
  have hsubmitted : (submitted 6).1.toOption.any (fun r => !r.accepted && r.rejectionCode == some .maxLeverage &&
      r.detail == mismatchDetail 8 (833 / 100)) = true := by decide +kernel
  obtain ⟨verdict, hverdict, happroved⟩ := Raising.exists_ok hevaluated
  obtain ⟨result, hresult, hrefused⟩ := Raising.exists_ok hsubmitted
  simp only [Bool.and_eq_true, Bool.not_eq_true', beq_iff_eq] at hrefused
  obtain ⟨⟨hrefused, hcode⟩, hdetail⟩ := hrefused
  exact hclaim exampleTestnet exampleSettings (stopped 6) 1000 0 ⟨0, ""⟩ exampleMark 100 _ RiskEnvelope.exampleFilters
    20 10 verdict hverdict happroved _ _ result (submitted_runs hverdict hresult)
    ⟨hrefused, hcode, 8, 833 / 100, by norm_num, hdetail⟩

end Examples

end Aetheris.TestnetLeverage
