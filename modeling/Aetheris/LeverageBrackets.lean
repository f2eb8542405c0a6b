import Aetheris.MarketParsing
import Aetheris.TestnetRequests

namespace Aetheris.LeverageBrackets

open Lib Coroutine Money Clock Enums OrderIdentity TestnetService Signing TestnetRequests RiskEngine RiskEnvelope
open VenueAnswers (Interpreter Json Number Payload field numberOfText finite? referenceInterpreter)
open PaperService (Observation VolatilityMeasurement)
open MarketParsing.Json (typeName)

/-- The venue's leverage ceiling for one symbol at one tier of notional. -/
structure LeverageBracket where
  symbol : String
  maxLeverage : Decimal
  notionalFloor : Decimal
  /-- Nothing where the venue leaves the top tier open. -/
  notionalCap : Option Decimal
  maintMarginRatio : Option Decimal
  maxLeverage_pos : 0 < maxLeverage
  notionalFloor_nonneg : 0 ≤ notionalFloor

def LeverageBracket.covers (bracket : LeverageBracket) (notional : Decimal) : Bool :=
  if notional < bracket.notionalFloor then false
  else bracket.notionalCap.all fun cap => notional ≤ cap

section Reading

variable [Interpreter] [Runtime]

def failed {α : Type} (message : String) : Except AdapterError α := .error (.other (.other message))

/-- `Decimal(str(value))`. -/
def number (value : Json) : Except AdapterError Number :=
  match numberOfText value.str with
  | none => failed "[<class 'decimal.ConversionSyntax'>]"
  | some number => .ok number

/-- A number where there is one that is not null. -/
def optionalNumber (bracket : Payload) (key : String) : Except AdapterError (Option Number) :=
  match field bracket key with
  | .null => .ok none
  | value => (number value).map some

/-- What the bracket's own model makes of the parts: no number that is not finite, a ceiling above
nothing and no negative floor. -/
def validated (symbol : String) (maxLeverage notionalFloor : Number) (notionalCap maintMarginRatio : Option Number) :
    Except AdapterError LeverageBracket :=
  match finite? maxLeverage, finite? notionalFloor, notionalCap.mapM finite?, maintMarginRatio.mapM finite? with
  | some maxLeverage, some notionalFloor, some notionalCap, some maintMarginRatio =>
      if h : 0 < maxLeverage ∧ 0 ≤ notionalFloor then
        .ok ⟨symbol, maxLeverage, notionalFloor, notionalCap, maintMarginRatio, h.1, h.2⟩
      else failed "validation error for LeverageBracket"
  | _, _, _, _ => failed "validation error for LeverageBracket"

def readBracket (symbol : String) : Json → Except AdapterError LeverageBracket
  | .dict bracket => do
      let notionalFloor ← number ((bracket.lookup "notionalFloor").getD (.int 0))
      let notionalCap ← optionalNumber bracket "notionalCap"
      let maxLeverage ← (bracket.lookup "initialLeverage").elim (failed "'initialLeverage'") number
      let maintMarginRatio ← optionalNumber bracket "maintMarginRatio"
      validated (Runtime.upper symbol) maxLeverage notionalFloor notionalCap maintMarginRatio
  | item => failed ("'" ++ typeName item ++ "' object has no attribute 'get'")

/-- The first that covers the notional. Those before it are read, those after it are not. -/
def bracketIn (symbol : String) (notional : Decimal) : List Json → Except AdapterError (Option LeverageBracket)
  | [] => .ok none
  | item :: rest => do
      let candidate ← readBracket symbol item
      if candidate.covers notional then return some candidate
      else bracketIn symbol notional rest

/-- What is iterated of `entry.get("brackets", []) or []`: a text's characters, a dictionary's keys. -/
def bracketsOf (entry : Payload) : Except AdapterError (List Json) :=
  match field entry "brackets" with
  | .list items => .ok items
  | .text value => .ok (value.toList.map fun c => .text (String.singleton c))
  | .dict entries => .ok (entries.map fun entry => .text entry.1)
  | value => if value.isTruthy then failed ("'" ++ typeName value ++ "' object is not iterable") else .ok []

def bracketAmong (symbol : String) (notional : Decimal) : List Json → Except AdapterError (Option LeverageBracket)
  | [] => .ok none
  | .dict entry :: rest =>
      if Runtime.upper (textOf entry "symbol") ≠ Runtime.upper symbol then bracketAmong symbol notional rest
      else do
        let items ← bracketsOf entry
        match ← bracketIn symbol notional items with
        | some bracket => return some bracket
        | none => bracketAmong symbol notional rest
  | _ :: rest => bracketAmong symbol notional rest

def bracketFrom (symbol : String) (notional : Decimal) (answer : Except AdapterError (Json × Timestamp)) :
    Except AdapterError LeverageBracket := do
  match ← bracketAmong symbol notional (entriesOf (← answer).1) with
  | some bracket => return bracket
  | none =>
      let shown := str notional
      let named := Runtime.upper symbol
      .error (.invalidResponse (s!"the venue published no leverage bracket covering a notional of {shown} " ++
        s!"for {named}"))

def leverageBracketPath : String := "/fapi/v1/leverageBracket"

/-- The ceiling of the tier that this notional falls in. -/
def leverageBracket [Hmac] (settings : TestnetSettings) {σ : Type} (symbol : String) (notional : Decimal) :
    WireM σ LeverageBracket :=
  requested settings .get leverageBracketPath [("symbol", .text (Runtime.upper symbol))] (bracketFrom symbol notional)

end Reading

section Published

variable [Interpreter] [Runtime] {symbol : String} {notional : Decimal} {items entries : List Json}
  {found : Option LeverageBracket} {payload : Json} {observedAt : Timestamp} {bracket : LeverageBracket}

/-- The brackets that can be read of an entry for the symbol. -/
def listed (symbol : String) : Json → List LeverageBracket
  | .dict entry =>
      if Runtime.upper (textOf entry "symbol") ≠ Runtime.upper symbol then []
      else (bracketsOf entry).toOption.elim [] fun items =>
        items.filterMap fun item => (readBracket symbol item).toOption
  | _ => []

/-- The venue's table for the symbol. -/
def published (symbol : String) (payload : Json) : List LeverageBracket := (entriesOf payload).flatMap (listed symbol)

theorem bracketIn_ok (h : bracketIn symbol notional items = .ok found) :
    (items.filterMap fun item => (readBracket symbol item).toOption).find? (·.covers notional) = found := by
  induction items with
  | nil => exact Except.ok.inj h
  | cons item items ih =>
      rw [bracketIn] at h
      cases hread : readBracket symbol item with
      | error e =>
          rw [hread] at h
          cases h
      | ok candidate =>
          rw [hread] at h
          change (if candidate.covers notional = true then .ok (some candidate) else bracketIn symbol notional items) =
            .ok found at h
          rw [List.filterMap_cons, hread]
          change (candidate :: items.filterMap fun item => (readBracket symbol item).toOption).find? _ = found
          rw [List.find?_cons]
          by_cases hcovers : candidate.covers notional = true
          · rw [if_pos hcovers] at h
            rw [hcovers]
            exact Except.ok.inj h
          · rw [if_neg hcovers] at h
            rw [Bool.eq_false_iff.mpr hcovers]
            exact ih h

theorem bracketAmong_ok (h : bracketAmong symbol notional entries = .ok found) :
    (entries.flatMap (listed symbol)).find? (·.covers notional) = found := by
  induction entries with
  | nil => exact Except.ok.inj h
  | cons entry entries ih =>
      rw [List.flatMap_cons, List.find?_append]
      cases entry with
      | dict entry =>
          rw [bracketAmong] at h
          by_cases hother : Runtime.upper (textOf entry "symbol") ≠ Runtime.upper symbol
          · rw [if_pos hother] at h
            rw [listed, if_pos hother]
            exact ih h
          · rw [if_neg hother] at h
            rw [listed, if_neg hother]
            cases hitems : bracketsOf entry with
            | error e =>
                rw [hitems] at h
                cases h
            | ok items =>
                rw [hitems] at h
                cases hin : bracketIn symbol notional items with
                | error e =>
                    change (bracketIn symbol notional items >>= _) = _ at h
                    rw [hin] at h
                    cases h
                | ok inner =>
                    change (bracketIn symbol notional items >>= _) = _ at h
                    rw [hin] at h
                    change ((items.filterMap fun item => (readBracket symbol item).toOption).find? _).or _ = found
                    rw [bracketIn_ok hin]
                    cases inner with
                    | some bracket => exact Except.ok.inj h
                    | none => exact ih h
      | null | bool value | int value | float value | text value | list items => exact ih h

/-- What is answered is the first tier of the venue's table that covers the notional. -/
theorem bracketFrom_ok (h : bracketFrom symbol notional (.ok (payload, observedAt)) = .ok bracket) :
    (published symbol payload).find? (·.covers notional) = some bracket := by
  change (bracketAmong symbol notional (entriesOf payload) >>= _) = _ at h
  cases hamong : bracketAmong symbol notional (entriesOf payload) with
  | error e =>
      rw [hamong] at h
      cases h
  | ok found =>
      rw [hamong] at h
      cases found with
      | none => cases h
      | some bracket' =>
          cases h
          exact bracketAmong_ok hamong

end Published

section Approval

variable [Interpreter] [Runtime] {payload : Json} {observedAt now : Timestamp} {bracket : LeverageBracket}
  {symbol : String} {request : TestnetOrderRequest} {account : RiskAccountView} {policy : RiskPolicy}
  {mark : Observation} {price : Decimal} {volatility : VolatilityMeasurement} {filters : SymbolFilters}
  {verdict : RiskEngine.RiskVerdict}

/-- Tiers as a venue publishes them: what allows the larger position allows it the lower leverage. -/
def Tiered (table : List LeverageBracket) : Prop :=
  ∀ a ∈ table, ∀ b ∈ table, ∀ m n, m < n → a.covers m = true → b.covers n = true →
    b.maxLeverage ≤ a.maxLeverage

/-- The one tier ends where the next begins, and allows no less. -/
def LeverageBracket.below (lower upper : LeverageBracket) : Bool :=
  lower.notionalCap.any fun cap => cap ≤ upper.notionalFloor ∧ upper.maxLeverage ≤ lower.maxLeverage

omit [Interpreter] [Runtime] in
theorem LeverageBracket.below_iff {lower upper : LeverageBracket} :
    lower.below upper = true ↔ ∃ cap, lower.notionalCap = some cap ∧ cap ≤ upper.notionalFloor ∧
      upper.maxLeverage ≤ lower.maxLeverage := by
  cases hcap : lower.notionalCap <;> simp [below, hcap]

omit [Interpreter] [Runtime] in
theorem LeverageBracket.covers_iff {notional : Decimal} : bracket.covers notional = true ↔
    bracket.notionalFloor ≤ notional ∧ ∀ cap, bracket.notionalCap = some cap → notional ≤ cap := by
  unfold covers
  by_cases hfloor : notional < bracket.notionalFloor
  · simp [hfloor, not_le.mpr hfloor]
  · simp [hfloor, not_lt.mp hfloor, Option.all_eq_true]

omit [Interpreter] [Runtime] in
theorem tiered_of_ascending {table : List LeverageBracket} (h : table.Pairwise fun a b => a.below b = true) :
    Tiered table := by
  intro a ha b hb m n hlt hm hn
  induction h with
  | nil => cases ha
  | cons hfirst _ ih =>
      rcases List.mem_cons.mp ha with rfl | hatail
      · rcases List.mem_cons.mp hb with rfl | hbtail
        · exact le_rfl
        · obtain ⟨_, _, _, hle⟩ := LeverageBracket.below_iff.mp (hfirst b hbtail)
          exact hle
      · rcases List.mem_cons.mp hb with rfl | hbtail
        -- the larger size cannot lie in the lower tier
        · obtain ⟨cap, hcap, hmeet, _⟩ := LeverageBracket.below_iff.mp (hfirst a hatail)
          have hfloor := (LeverageBracket.covers_iff.mp hm).1
          have hwithin := (LeverageBracket.covers_iff.mp hn).2 cap hcap
          exact absurd (hwithin.trans (hmeet.trans hfloor)) (not_le.mpr hlt)
        · exact ih hatail hbtail

/-- The size that the bracket is asked for. -/
def asked (request : TestnetOrderRequest) : Decimal := request.margin * request.requestedLeverage

/-- An approval that was ruled under the ceiling of the size that was asked for is within the ceiling of every tier
that the size approved in its place falls in. -/
theorem approved_within_tiers (hbracket : bracketFrom symbol (asked request) (.ok (payload, observedAt)) = .ok bracket)
    (htiers : Tiered (published symbol payload))
    (h : evaluate (TestnetRuling.proposal request symbol) account
      (TestnetRuling.marketView mark price volatility filters bracket.maxLeverage) policy now = .ok verdict)
    (ha : verdict.approved = true) :
    (published symbol payload).find? (·.covers (asked request)) = some bracket ∧
      ∃ l notional, verdict.leverage.approvedLeverage = some l ∧ verdict.approvedNotional = some notional ∧
        l ≤ bracket.maxLeverage ∧ notional ≤ asked request + 1 / (2 * usdtUnits) ∧
        (notional = asked request → bracket.covers notional = true) ∧
        ∀ tier ∈ published symbol payload, tier.covers notional = true → notional < asked request →
          l ≤ tier.maxLeverage := by
  have hfound := bracketFrom_ok hbracket
  have hcovers : bracket.covers (asked request) = true := by
    simpa only using List.find?_some hfound
  have hmem : bracket ∈ published symbol payload := List.mem_of_find?_eq_some hfound
  obtain ⟨_, l, notional, hcleared⟩ := evaluate_cleared h ha
  obtain ⟨_, hrequest, hpermitted⟩ := hcleared.leverage
  have hl : l ≤ request.requestedLeverage := hpermitted.requested.trans_eq (leverageRequest_ok hrequest)
  have hsize : notional ≤ asked request + 1 / (2 * usdtUnits) :=
    calc notional ≤ quantizeUsdt (request.margin * l) := hcleared.notional_le
      _ ≤ request.margin * l + 1 / (2 * usdtUnits) := quantizeUsdt_le _
      _ ≤ asked request + 1 / (2 * usdtUnits) := by gcongr; exact mul_le_mul_of_nonneg_left hl hcleared.funded.1.le
  have hceiling : l ≤ bracket.maxLeverage := hpermitted.exchange bracket.maxLeverage rfl
  refine ⟨hfound, l, notional, hcleared.approvedLeverage, hcleared.approvedNotional, hceiling, hsize, ?_, ?_⟩
  · rintro rfl
    exact hcovers
  · intro tier htier htier_covers hsmaller
    exact hceiling.trans (htiers tier htier bracket hmem notional (asked request) hsmaller htier_covers hcovers)

omit [Interpreter] [Runtime]

def exampleRequest : TestnetOrderRequest where
  symbol := "BTCUSDT"
  side := .buy
  margin := 50
  requestedLeverage := 3
  stopLossPercent := 2
  intentKey := "k"

def exampleTable : Json :=
  .list [.dict [("symbol", .text "BTCUSDT"), ("brackets", .list [
    .dict [("initialLeverage", .int 20), ("notionalFloor", .int 0), ("notionalCap", .int 120)],
    .dict [("initialLeverage", .int 2), ("notionalFloor", .int 120)]])]]

def exampleMark : Observation where
  value := some { lastPrice := 61 }
  status := .ok
  source := "BINANCE"
  ageSeconds := some 1
  value_status := rfl

def exampleRuling (bracket : LeverageBracket) : Except EvaluateError RiskEngine.RiskVerdict :=
  @evaluate referenceRuntime (TestnetRuling.proposal exampleRequest "BTCUSDT") exampleAccount
    (TestnetRuling.marketView exampleMark 61 { status := .measured, atrPercent := some 2 } exampleFilters
      bracket.maxLeverage) examplePolicy 60000000

def exampleBracket : Except AdapterError LeverageBracket :=
  @bracketFrom referenceInterpreter referenceRuntime "BTCUSDT" (asked exampleRequest) (.ok (exampleTable, 0))

theorem approved_within_tiers_example : ∃ bracket verdict, exampleBracket = .ok bracket ∧
    exampleRuling bracket = .ok verdict ∧ ∃ l ∈ verdict.leverage.approvedLeverage, l ≤ bracket.maxLeverage := by
  have hrun : (match exampleBracket with
      | .ok bracket => (exampleRuling bracket).toOption.any RiskEngine.RiskVerdict.approved
      | .error _ => false) = true := by decide +kernel
  have hascending : (@published referenceInterpreter referenceRuntime "BTCUSDT" exampleTable).Pairwise
      fun a b => a.below b = true := by decide +kernel
  have htiers := tiered_of_ascending hascending
  cases hbracket : exampleBracket with
  | error e =>
      rw [hbracket] at hrun
      cases hrun
  | ok bracket =>
      rw [hbracket] at hrun
      obtain ⟨verdict, hverdict, ha⟩ := Raising.exists_ok hrun
      obtain ⟨-, l, -, hl, -, hle, -, -, -⟩ := @approved_within_tiers referenceInterpreter referenceRuntime
        _ _ _ _ _ _ _ _ _ _ _ _ _ hbracket htiers hverdict ha
      exact ⟨bracket, verdict, rfl, hverdict, l, hl, hle⟩

end Approval

end Aetheris.LeverageBrackets
