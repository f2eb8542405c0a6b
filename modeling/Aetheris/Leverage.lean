import Mathlib.Tactic.NormNum
import Aetheris.Money

namespace Aetheris.Leverage

open Money

def leverageMin : Decimal := 1

def leverageMax : Decimal := 500

inductive LeverageOutcome
  | approved | reduced | rejected
  deriving DecidableEq, Repr

def LeverageOutcome.isUsable : LeverageOutcome → Bool
  | approved | reduced => true
  | rejected => false

inductive LeverageReason
  | approvedInFull | boundByExchangeMax | boundByRiskMax | approvedAtDomainMinimum
  | exchangeMaxUnknown | riskMaxUnknown | exchangeMaxInvalid | riskMaxInvalid
  | riskEngineUnavailable | requestOutOfRange | insufficientData
  deriving DecidableEq, Repr

/-- A candidate. Building one checks the range. -/
structure LeverageRequest where
  requestedLeverage : Decimal
  basis : String
  inputs : List (String × Decimal) := []
  requested_min : leverageMin ≤ requestedLeverage
  requested_max : requestedLeverage ≤ leverageMax

structure LeverageDecision where
  requestedLeverage : Option Decimal := none
  exchangeMaxLeverage : Option Decimal := none
  riskMaxLeverage : Option Decimal := none
  approvedLeverage : Option Decimal := none
  outcome : LeverageOutcome
  reason : LeverageReason
  detail : String
  bindingConstraint : Option String := none
  basis : Option String := none
  inputs : List (String × Decimal) := []
  deriving DecidableEq

def LeverageDecision.isUsable (d : LeverageDecision) : Bool :=
  d.outcome.isUsable && d.approvedLeverage.isSome

def domainText : String :=
  let low := str leverageMin
  let high := str leverageMax
  s!"{low}-{high}x"

def validateCeiling (value : Decimal) (name : String) : Option String :=
  let shown := str value
  let low := str leverageMin
  if value < leverageMin then some s!"{name} of {shown}x is below the minimum {low}x"
  else if leverageMax < value then
    some (s!"{name} of {shown}x exceeds the declared candidate domain of " ++ domainText ++
      "; it is refused rather than clamped, because no rule declares how to reduce it")
  else none

/-- The fields every decision on a request shares. -/
def common (request : LeverageRequest) (exchangeMax riskMax : Option Decimal) (outcome : LeverageOutcome)
    (reason : LeverageReason) (detail : String) : LeverageDecision where
  requestedLeverage := some request.requestedLeverage
  exchangeMaxLeverage := exchangeMax
  riskMaxLeverage := riskMax
  basis := some request.basis
  inputs := request.inputs
  outcome := outcome
  reason := reason
  detail := detail

def malformed (ceiling : Option Decimal) (name : String) : Bool :=
  ceiling.any (fun value => (validateCeiling value name).isSome)

def domainMinimumDetail : String :=
  let low := str leverageMin
  s!"{low}x approved at the domain minimum. Not every constraint is " ++
    s!"known, but every ceiling this domain accepts is at least {low}x, " ++
    s!"so min({low}, any valid ceiling) is {low} whatever the " ++
    s!"missing values turn out to be. {low}x is unlevered exposure -- " ++
    "margin equals notional and nothing is borrowed. Anything above it still " ++
    "requires the venue ceiling and the risk engine."

def domainMinimumDecision (request : LeverageRequest) (exchangeMax riskMax : Option Decimal) :
    Option LeverageDecision :=
  if request.requestedLeverage ≠ leverageMin then none
  else if malformed exchangeMax "exchange_max_leverage" || malformed riskMax "risk_max_leverage" then none
  else some { common request exchangeMax riskMax .approved .approvedAtDomainMinimum domainMinimumDetail with
    approvedLeverage := some leverageMin
    bindingConstraint := some "domain_minimum" }

def resolveKnown (request : LeverageRequest) (exchangeMax riskMax : Decimal) : LeverageDecision :=
  let requested := request.requestedLeverage
  let approved := min (min requested exchangeMax) riskMax
  let shown := str approved
  let asked := str requested
  if requested ≤ approved then
    { common request (some exchangeMax) (some riskMax) .approved .approvedInFull
        s!"{shown}x approved; within every known constraint." with
      approvedLeverage := some approved }
  else if approved = exchangeMax then
    { common request (some exchangeMax) (some riskMax) .reduced .boundByExchangeMax
        s!"Requested {asked}x reduced to {shown}x by the venue ceiling." with
      approvedLeverage := some approved
      bindingConstraint := some "exchange_max_leverage" }
  else
    { common request (some exchangeMax) (some riskMax) .reduced .boundByRiskMax
        s!"Requested {asked}x reduced to {shown}x by the risk engine ceiling." with
      approvedLeverage := some approved
      bindingConstraint := some "risk_max_leverage" }

/-- The chain past the domain minimum. -/
def resolveConstrained (request : LeverageRequest) (exchangeMax riskMax : Option Decimal)
    (riskEngineAvailable : Bool) : LeverageDecision :=
  match exchangeMax with
  | none => common request none riskMax .rejected .exchangeMaxUnknown
      ("The venue's maximum leverage for this symbol is unknown, because " ++
        "leverage brackets are served only from an authenticated endpoint and " ++
        "this build holds no credentials. No leverage is approved: an unknown " ++
        "ceiling is not permission to use the requested value.")
  | some exchange =>
      match validateCeiling exchange "exchange_max_leverage" with
      | some problem => common request exchangeMax riskMax .rejected .exchangeMaxInvalid
          s!"{problem}. No leverage is approved."
      | none =>
          if !riskEngineAvailable then
            common request exchangeMax riskMax .rejected .riskEngineUnavailable
              ("The risk engine is not implemented yet (phase 7), so volatility, stop " ++
                "distance, liquidation distance, account equity, position size and the " ++
                "daily loss limit have not been evaluated. The risk engine has final " ++
                "authority, so no leverage is approved without it.")
          else match riskMax with
            | none => common request exchangeMax none .rejected .riskMaxUnknown
                "The risk engine did not produce a maximum, so none is approved."
            | some risk =>
                match validateCeiling risk "risk_max_leverage" with
                | some problem => common request exchangeMax riskMax .rejected .riskMaxInvalid
                    s!"{problem}. No leverage is approved."
                | none => resolveKnown request exchange risk

def resolveLeverage (request : Option LeverageRequest) (exchangeMax riskMax : Option Decimal)
    (riskEngineAvailable : Bool) : LeverageDecision :=
  match request with
  | none =>
      { exchangeMaxLeverage := exchangeMax
        riskMaxLeverage := riskMax
        outcome := .rejected
        reason := .insufficientData
        detail := "No leverage candidate could be derived: volatility was not measurable " ++
          "from the available candles." }
  | some request =>
      match validateCeiling request.requestedLeverage "requested_leverage" with
      | some problem => common request exchangeMax riskMax .rejected .requestOutOfRange
          s!"{problem}. No leverage is approved."
      | none =>
          -- a chain that is known in full never reports the domain minimum
          if exchangeMax.isNone || !riskEngineAvailable || riskMax.isNone then
            (domainMinimumDecision request exchangeMax riskMax).getD
              (resolveConstrained request exchangeMax riskMax riskEngineAvailable)
          else resolveConstrained request exchangeMax riskMax riskEngineAvailable

theorem validateCeiling_eq_none {value : Decimal} {name : String} :
    validateCeiling value name = none ↔ leverageMin ≤ value ∧ value ≤ leverageMax := by
  unfold validateCeiling
  split
  · simp_all [not_le]
  · split
    · simp_all [not_le]
    · simp_all [not_lt]

theorem le_of_not_malformed {ceiling : Option Decimal} {name : String} (h : malformed ceiling name = false) :
    ∀ c ∈ ceiling, leverageMin ≤ c := by
  rintro c rfl
  have hnone : validateCeiling c name = none := by simpa [malformed] using h
  exact (validateCeiling_eq_none.mp hnone).1

/-- What an approved leverage is within. -/
structure Permitted (request : LeverageRequest) (exchangeMax riskMax : Option Decimal) (l : Decimal) : Prop where
  min : leverageMin ≤ l
  max : l ≤ leverageMax
  requested : l ≤ request.requestedLeverage
  exchange : ∀ c ∈ exchangeMax, l ≤ c
  risk : ∀ c ∈ riskMax, l ≤ c
  known : l = leverageMin ∨ riskMax.isSome

variable {request : LeverageRequest} {exchangeMax riskMax : Option Decimal} {l : Decimal}

/-- Where both ceilings are known, the least of the three is approved. -/
theorem resolveKnown_least (request : LeverageRequest) (exchange risk : Decimal) :
    (resolveKnown request exchange risk).approvedLeverage =
      some (Min.min (Min.min request.requestedLeverage exchange) risk) := by
  unfold resolveKnown
  dsimp only
  split
  · rfl
  · split
    · rfl
    · rfl

theorem resolveConstrained_least {available : Bool}
    (hl : (resolveConstrained request exchangeMax riskMax available).approvedLeverage = some l) :
    ∃ exchange risk, exchangeMax = some exchange ∧ riskMax = some risk ∧ leverageMin ≤ exchange ∧
      leverageMin ≤ risk ∧ l = Min.min (Min.min request.requestedLeverage exchange) risk := by
  unfold resolveConstrained at hl
  cases exchangeMax with
  | none => cases hl
  | some exchange =>
      dsimp only at hl
      split at hl
      · cases hl
      next hexchange =>
        split at hl
        · cases hl
        cases riskMax with
        | none => cases hl
        | some risk =>
            dsimp only at hl
            split at hl
            · cases hl
            next hrisk =>
              rw [resolveKnown_least] at hl
              exact ⟨exchange, risk, rfl, rfl, (validateCeiling_eq_none.mp hexchange).1,
                (validateCeiling_eq_none.mp hrisk).1, (Option.some.inj hl).symm⟩

theorem domainMinimumDecision_least {d : LeverageDecision}
    (h : domainMinimumDecision request exchangeMax riskMax = some d) :
    d.approvedLeverage = some leverageMin ∧ request.requestedLeverage = leverageMin ∧
      (∀ c ∈ exchangeMax, leverageMin ≤ c) ∧ ∀ c ∈ riskMax, leverageMin ≤ c := by
  unfold domainMinimumDecision at h
  split at h
  · cases h
  next hasked =>
    split at h
    · cases h
    next hwell =>
      cases h
      rw [Bool.or_eq_true, not_or, Bool.not_eq_true, Bool.not_eq_true] at hwell
      exact ⟨rfl, not_not.mp hasked, le_of_not_malformed hwell.1, le_of_not_malformed hwell.2⟩

/-- What the chain approves is the domain minimum that was asked for, or the least of what it knows. -/
theorem resolveLeverage_least {available : Bool}
    (hl : (resolveLeverage (some request) exchangeMax riskMax available).approvedLeverage = some l) :
    (l = leverageMin ∧ request.requestedLeverage = leverageMin ∧ (∀ c ∈ exchangeMax, leverageMin ≤ c) ∧
        ∀ c ∈ riskMax, leverageMin ≤ c) ∨
      ∃ exchange risk, exchangeMax = some exchange ∧ riskMax = some risk ∧ leverageMin ≤ exchange ∧
        leverageMin ≤ risk ∧ l = Min.min (Min.min request.requestedLeverage exchange) risk := by
  unfold resolveLeverage at hl
  dsimp only at hl
  split at hl
  · cases hl
  split at hl
  · cases hd : domainMinimumDecision request exchangeMax riskMax with
    | none =>
        rw [hd] at hl
        exact .inr (resolveConstrained_least hl)
    | some d =>
        obtain ⟨hminimum, hasked, hbounds⟩ := domainMinimumDecision_least hd
        rw [hd] at hl
        exact .inl ⟨Option.some.inj (hl.symm.trans hminimum), hasked, hbounds⟩
  · exact .inr (resolveConstrained_least hl)

/-- Whatever the chain approves is within every constraint that is known. -/
theorem resolveLeverage_approved {available : Bool}
    (hl : (resolveLeverage (some request) exchangeMax riskMax available).approvedLeverage = some l) :
    Permitted request exchangeMax riskMax l := by
  rcases resolveLeverage_least hl with ⟨rfl, -, hexchange, hrisk⟩ | ⟨exchange, risk, rfl, rfl, hexchange, hrisk, rfl⟩
  · exact ⟨le_rfl, by norm_num [leverageMin, leverageMax], request.requested_min, hexchange, hrisk, .inl rfl⟩
  · have hasked : Min.min (Min.min request.requestedLeverage exchange) risk ≤ request.requestedLeverage :=
      (min_le_left _ _).trans (min_le_left _ _)
    refine ⟨le_min (le_min request.requested_min hexchange) hrisk, hasked.trans request.requested_max, hasked,
      ?_, ?_, .inr rfl⟩
    · rintro c ⟨⟩
      exact (min_le_left _ _).trans (min_le_right _ _)
    · rintro c ⟨⟩
      exact min_le_right _ _

end Aetheris.Leverage
