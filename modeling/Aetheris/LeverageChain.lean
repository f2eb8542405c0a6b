import Aetheris.Leverage

namespace Aetheris.LeverageChain

open Money Leverage

/-- A number as a caller may hand it over, before any model has read it. -/
inductive Handed
  | finite (value : Decimal)
  | nonFinite (text : String)
  | foreign (typeName text : String)
  deriving DecidableEq

/-- How a decimal field of a model reads what it is handed. The library that
validates the models is not part of the repository: it takes a finite decimal as
it is, refuses any other decimal, and has rules of its own for other types. -/
structure DecimalField where
  read : Handed → Option Decimal
  read_finite : ∀ value, read (.finite value) = some value
  read_nonFinite : ∀ text, read (.nonFinite text) = none

/-- The fields a model refused. -/
structure ValidationError where
  fields : List String
  deriving DecidableEq

/-- A request whose model is not trusted to have checked it. -/
structure Request where
  requestedLeverage : Handed
  basis : String
  inputs : List (String × Handed) := []

structure Links where
  request : Option Request
  exchangeMax : Option Handed
  riskMax : Option Handed
  riskEngineAvailable : Bool

/-- What a decision states beyond the links it was made from. -/
structure Ruling where
  approvedLeverage : Option Decimal := none
  outcome : LeverageOutcome := .rejected
  reason : LeverageReason
  detail : String
  bindingConstraint : Option String := none

/-- The problem with a ceiling, or the decimal that has none. -/
def Handed.validateCeiling : Handed → String → Except String Decimal
  | finite value, name =>
      match Leverage.validateCeiling value name with
      | some problem => .error problem
      | none => .ok value
  | nonFinite _, name => .error (name ++ " is not a finite number")
  | foreign typeName _, name => .error (name ++ " must be a Decimal, got " ++ typeName)

def malformed (ceiling : Option Handed) (name : String) : Bool :=
  ceiling.any (fun value => !(value.validateCeiling name).isOk)

def domainMinimumDecision (requested : Decimal) (exchangeMax riskMax : Option Handed) : Option Ruling :=
  if requested ≠ leverageMin then none
  else if malformed exchangeMax "exchange_max_leverage" || malformed riskMax "risk_max_leverage" then none
  else some {
    approvedLeverage := some leverageMin
    outcome := .approved
    reason := .approvedAtDomainMinimum
    detail := domainMinimumDetail
    bindingConstraint := some "domain_minimum" }

def resolveKnown (requested exchangeMax riskMax : Decimal) : Ruling :=
  let approved := min (min requested exchangeMax) riskMax
  let shown := str approved
  let asked := str requested
  if requested ≤ approved then
    { approvedLeverage := some approved
      outcome := .approved
      reason := .approvedInFull
      detail := s!"{shown}x approved; within every known constraint." }
  else if approved = exchangeMax then
    { approvedLeverage := some approved
      outcome := .reduced
      reason := .boundByExchangeMax
      detail := s!"Requested {asked}x reduced to {shown}x by the venue ceiling."
      bindingConstraint := some "exchange_max_leverage" }
  else
    { approvedLeverage := some approved
      outcome := .reduced
      reason := .boundByRiskMax
      detail := s!"Requested {asked}x reduced to {shown}x by the risk engine ceiling."
      bindingConstraint := some "risk_max_leverage" }

def invalid (reason : LeverageReason) (problem : String) : Ruling where
  reason := reason
  detail := problem ++ ". No leverage is approved."

/-- The risk engine's own ceiling, the last link. -/
def resolveRisk (requested exchangeMax : Decimal) (riskMax : Option Handed) : Ruling :=
  match riskMax with
  | none =>
      { reason := .riskMaxUnknown
        detail := "The risk engine did not produce a maximum, so none is approved." }
  | some risk =>
      match risk.validateCeiling "risk_max_leverage" with
      | .error problem => invalid .riskMaxInvalid problem
      | .ok riskMax => resolveKnown requested exchangeMax riskMax

def resolveConstrained (requested : Decimal) (exchangeMax riskMax : Option Handed)
    (riskEngineAvailable : Bool) : Ruling :=
  match exchangeMax with
  | none =>
      { reason := .exchangeMaxUnknown
        detail := "The venue's maximum leverage for this symbol is unknown, because " ++
          "leverage brackets are served only from an authenticated endpoint and " ++
          "this build holds no credentials. No leverage is approved: an unknown " ++
          "ceiling is not permission to use the requested value." }
  | some exchange =>
      match exchange.validateCeiling "exchange_max_leverage" with
      | .error problem => invalid .exchangeMaxInvalid problem
      | .ok exchangeMax =>
          if !riskEngineAvailable then
            { reason := .riskEngineUnavailable
              detail := "The risk engine is not implemented yet (phase 7), so volatility, stop " ++
                "distance, liquidation distance, account equity, position size and the " ++
                "daily loss limit have not been evaluated. The risk engine has final " ++
                "authority, so no leverage is approved without it." }
          else resolveRisk requested exchangeMax riskMax

def resolveRequest (requested : Handed) (exchangeMax riskMax : Option Handed) (riskEngineAvailable : Bool) :
    Ruling :=
  match requested.validateCeiling "requested_leverage" with
  | .error problem => invalid .requestOutOfRange problem
  | .ok requested =>
      -- a chain that is known in full never reports the domain minimum
      if exchangeMax.isNone || !riskEngineAvailable || riskMax.isNone then
        (domainMinimumDecision requested exchangeMax riskMax).getD
          (resolveConstrained requested exchangeMax riskMax riskEngineAvailable)
      else resolveConstrained requested exchangeMax riskMax riskEngineAvailable

def rule (links : Links) : Ruling :=
  match links.request with
  | none =>
      { reason := .insufficientData
        detail := "No leverage candidate could be derived: volatility was not measurable " ++
          "from the available candles." }
  | some request =>
      resolveRequest request.requestedLeverage links.exchangeMax links.riskMax links.riskEngineAvailable

/-- The decimals a decision is built from, by the field that reads each. -/
def Links.handed (links : Links) : List (String × Handed) :=
  (links.request.map (fun r => ("requested_leverage", r.requestedLeverage))).toList ++
    (links.exchangeMax.map (fun c => ("exchange_max_leverage", c))).toList ++
    (links.riskMax.map (fun c => ("risk_max_leverage", c))).toList ++
    (links.request.elim [] (fun r => r.inputs.map (fun (name, v) => ("inputs." ++ name, v))))

section Decision

variable (field : DecimalField)

/-- The model's constructor: one refused field refuses the decision. -/
def decision (links : Links) (ruling : Ruling) : Except ValidationError LeverageDecision :=
  match links.handed.filter (fun (_, value) => (field.read value).isNone) with
  | [] => .ok {
      requestedLeverage := links.request.bind (fun r => field.read r.requestedLeverage)
      exchangeMaxLeverage := links.exchangeMax.bind field.read
      riskMaxLeverage := links.riskMax.bind field.read
      approvedLeverage := ruling.approvedLeverage
      outcome := ruling.outcome
      reason := ruling.reason
      detail := ruling.detail
      bindingConstraint := ruling.bindingConstraint
      basis := links.request.map (·.basis)
      inputs := links.request.elim [] (fun r =>
        r.inputs.filterMap (fun (name, v) => (field.read v).map (fun d => (name, d)))) }
  | refused => .error ⟨refused.map Prod.fst⟩

def resolveLeverage (links : Links) : Except ValidationError LeverageDecision :=
  decision field links (rule links)

end Decision

/-- A value the chain can reckon with. -/
def Handed.Valid (handed : Handed) (value : Decimal) : Prop :=
  handed = .finite value ∧ leverageMin ≤ value ∧ value ≤ leverageMax

def Handed.Usable (handed : Handed) : Prop :=
  ∃ value, handed.Valid value

/-- Every link is known, and no value among them is malformed. -/
structure Links.Known (links : Links) (requested exchange risk : Decimal) : Prop where
  request : ∃ r ∈ links.request, r.requestedLeverage.Valid requested
  exchange : ∃ c ∈ links.exchangeMax, c.Valid exchange
  risk : ∃ c ∈ links.riskMax, c.Valid risk
  available : links.riskEngineAvailable = true

/-- Some link is unknown, what is supplied is well formed, and the request is 1x. -/
structure Links.AtMinimum (links : Links) : Prop where
  request : ∃ r ∈ links.request, r.requestedLeverage.Valid leverageMin
  exchange : ∀ c ∈ links.exchangeMax, c.Usable
  risk : ∀ c ∈ links.riskMax, c.Usable
  missing : links.exchangeMax = none ∨ links.riskMax = none ∨ links.riskEngineAvailable = false

/-- The least of the three, and which of them it is. -/
def Bound (requested exchange risk : Decimal) (outcome : LeverageOutcome) (named : Option String) : Prop :=
  let least := min (min requested exchange) risk
  (outcome = .approved ↔ least = requested) ∧
    (least ≠ requested → outcome = .reduced ∧
      (named = some "exchange_max_leverage" ∧ least = exchange ∨
        named = some "risk_max_leverage" ∧ least = risk))

/-- What the chain is to rule: the least of three known links, 1x where one is
unknown, and nothing anywhere else. -/
structure Settles (links : Links) (approved : Option Decimal) (outcome : LeverageOutcome)
    (named : Option String) : Prop where
  known : ∀ requested exchange risk, links.Known requested exchange risk →
    approved = some (min (min requested exchange) risk) ∧ Bound requested exchange risk outcome named
  minimum : links.AtMinimum → approved = some leverageMin ∧ outcome = .approved
  otherwise : ¬ links.AtMinimum → (¬ ∃ requested exchange risk, links.Known requested exchange risk) →
    approved = none ∧ outcome = .rejected

/-- One unknown ceiling becomes known, and valid. -/
inductive Links.Learns (links : Links) : Links → Prop
  | exchange (ceiling : Handed) : links.exchangeMax = none → ceiling.Usable →
      Learns links { links with exchangeMax := some ceiling }
  | risk (ceiling : Handed) : links.riskMax = none → ceiling.Usable →
      Learns links { links with riskMax := some ceiling }

def Ruling.Refuses (ruling : Ruling) : Prop :=
  ruling.approvedLeverage = none ∧ ruling.outcome = .rejected

theorem validateCeiling_eq_ok {handed : Handed} {name : String} {value : Decimal} :
    handed.validateCeiling name = .ok value ↔ handed.Valid value := by
  cases handed with
  | finite v =>
      rw [Handed.validateCeiling, Handed.Valid]
      cases hv : Leverage.validateCeiling v name with
      | none =>
          have hrange := validateCeiling_eq_none.mp hv
          constructor
          · rintro ⟨⟩
            exact ⟨rfl, hrange⟩
          · rintro ⟨⟨⟩, -⟩
            rfl
      | some problem =>
          constructor
          · rintro ⟨⟩
          · rintro ⟨⟨⟩, hrange⟩
            have hnone : Leverage.validateCeiling value name = none := validateCeiling_eq_none.mpr hrange
            rw [hnone] at hv
            cases hv
  | nonFinite text => simp [Handed.validateCeiling, Handed.Valid]
  | foreign typeName text => simp [Handed.validateCeiling, Handed.Valid]

theorem malformed_eq_false {ceiling : Option Handed} {name : String} :
    malformed ceiling name = false ↔ ∀ c ∈ ceiling, c.Usable := by
  cases ceiling with
  | none => simp [malformed]
  | some c =>
      simp only [malformed, Option.any_some, Bool.not_eq_eq_eq_not, Bool.not_false, Option.mem_some_iff,
        forall_eq', Handed.Usable, ← @validateCeiling_eq_ok _ name]
      cases c.validateCeiling name <;> simp [Except.isOk, Except.toBool]

section Cases

variable (requested exchange : Decimal) (exchangeMax riskMax : Option Handed) (available : Bool)

theorem resolveRisk_cases :
    (∃ risk, (∃ c ∈ riskMax, c.Valid risk) ∧
        resolveRisk requested exchange riskMax = resolveKnown requested exchange risk) ∨
      (resolveRisk requested exchange riskMax).Refuses := by
  cases riskMax with
  | none => exact .inr ⟨rfl, rfl⟩
  | some c =>
      rw [resolveRisk]
      cases hc : c.validateCeiling "risk_max_leverage" with
      | error problem => exact .inr ⟨rfl, rfl⟩
      | ok risk => exact .inl ⟨risk, ⟨c, rfl, validateCeiling_eq_ok.mp hc⟩, rfl⟩

theorem resolveConstrained_cases :
    (∃ exchange risk, (∃ c ∈ exchangeMax, c.Valid exchange) ∧ (∃ c ∈ riskMax, c.Valid risk) ∧
        available = true ∧
        resolveConstrained requested exchangeMax riskMax available = resolveKnown requested exchange risk) ∨
      (resolveConstrained requested exchangeMax riskMax available).Refuses := by
  cases exchangeMax with
  | none => exact .inr ⟨rfl, rfl⟩
  | some c =>
      rw [resolveConstrained]
      cases hc : c.validateCeiling "exchange_max_leverage" with
      | error problem => exact .inr ⟨rfl, rfl⟩
      | ok exchange =>
          cases available with
          | false => exact .inr ⟨rfl, rfl⟩
          | true =>
              rcases resolveRisk_cases requested exchange riskMax with ⟨risk, hrisk, hruled⟩ | hrefused
              · exact .inl ⟨exchange, risk, ⟨c, rfl, validateCeiling_eq_ok.mp hc⟩, hrisk, rfl, hruled⟩
              · exact .inr hrefused

theorem domainMinimumDecision_cases :
    (requested = leverageMin ∧ (∀ c ∈ exchangeMax, c.Usable) ∧ ∀ c ∈ riskMax, c.Usable) ∨
      domainMinimumDecision requested exchangeMax riskMax = none := by
  rw [domainMinimumDecision]
  split
  · exact .inr rfl
  next hrequested =>
    split
    · exact .inr rfl
    next hwell =>
      rw [Bool.or_eq_true, not_or, Bool.not_eq_true, Bool.not_eq_true] at hwell
      exact .inl ⟨not_not.mp hrequested, malformed_eq_false.mp hwell.1, malformed_eq_false.mp hwell.2⟩

end Cases

section Rule

variable {links : Links} {requested exchange risk : Decimal}

theorem rule_known (h : links.Known requested exchange risk) :
    rule links = resolveKnown requested exchange risk := by
  obtain ⟨⟨r, hr, hrequested⟩, ⟨e, he, hexchange⟩, ⟨k, hk, hrisk⟩, havailable⟩ := h
  obtain ⟨request, exchangeMax, riskMax, available⟩ := links
  cases hr
  cases he
  cases hk
  cases havailable
  simp [rule, resolveRequest, resolveConstrained, resolveRisk, validateCeiling_eq_ok.mpr hrequested,
    validateCeiling_eq_ok.mpr hexchange, validateCeiling_eq_ok.mpr hrisk]

/-- At the minimum the chain approves without asking the links that are missing. -/
theorem rule_atMinimum (h : links.AtMinimum) :
    (rule links).approvedLeverage = some leverageMin ∧ (rule links).outcome = .approved := by
  obtain ⟨⟨r, hr, hrequested⟩, hexchange, hrisk, hmissing⟩ := h
  have hwell : (links.exchangeMax.isNone || !links.riskEngineAvailable || links.riskMax.isNone) = true := by
    rcases hmissing with h | h | h <;> simp [h]
  rw [rule, hr]
  dsimp only
  rw [resolveRequest, validateCeiling_eq_ok.mpr hrequested]
  dsimp only
  rw [if_pos hwell, domainMinimumDecision, if_neg (not_not.mpr rfl), malformed_eq_false.mpr hexchange,
    malformed_eq_false.mpr hrisk]
  exact ⟨rfl, rfl⟩

theorem rule_otherwise (hminimum : ¬ links.AtMinimum)
    (hknown : ¬ ∃ requested exchange risk, links.Known requested exchange risk) : (rule links).Refuses := by
  rw [rule]
  cases hr : links.request with
  | none => exact ⟨rfl, rfl⟩
  | some r =>
      dsimp only
      rw [resolveRequest]
      cases hrequested : r.requestedLeverage.validateCeiling "requested_leverage" with
      | error problem => exact ⟨rfl, rfl⟩
      | ok requested =>
          have hvalid := validateCeiling_eq_ok.mp hrequested
          have hconstrained : (resolveConstrained requested links.exchangeMax links.riskMax
              links.riskEngineAvailable).Refuses := by
            rcases resolveConstrained_cases requested links.exchangeMax links.riskMax
                links.riskEngineAvailable with ⟨exchange, risk, he, hk, havailable, -⟩ | hrefused
            · exact absurd ⟨requested, exchange, risk, ⟨r, hr, hvalid⟩, he, hk, havailable⟩ hknown
            · exact hrefused
          dsimp only
          split
          next hmissing =>
            rcases domainMinimumDecision_cases requested links.exchangeMax links.riskMax with ⟨rfl, he, hk⟩ | hnone
            · refine absurd ⟨⟨r, hr, hvalid⟩, he, hk, ?_⟩ hminimum
              simp only [Bool.or_eq_true, Option.isNone_iff_eq_none, Bool.not_eq_true'] at hmissing
              rcases hmissing with (h | h) | h
              · exact .inl h
              · exact .inr (.inr h)
              · exact .inr (.inl h)
            · rw [hnone]
              exact hconstrained
          · exact hconstrained

theorem resolveKnown_bound (requested exchange risk : Decimal) :
    (resolveKnown requested exchange risk).approvedLeverage = some (min (min requested exchange) risk) ∧
    Bound requested exchange risk (resolveKnown requested exchange risk).outcome
      (resolveKnown requested exchange risk).bindingConstraint := by
  have hle : min (min requested exchange) risk ≤ requested := (min_le_left _ _).trans (min_le_left _ _)
  rw [resolveKnown]
  split
  next hfull =>
    have heq := le_antisymm hle hfull
    exact ⟨rfl, ⟨fun _ => heq, fun _ => rfl⟩, fun hne => absurd heq hne⟩
  next hless =>
    have hne : min (min requested exchange) risk ≠ requested := fun h => hless h.ge
    split
    next hexchange =>
      exact ⟨rfl, ⟨fun h => (nomatch h), fun h => absurd h hne⟩, fun _ => ⟨rfl, .inl ⟨rfl, hexchange⟩⟩⟩
    next hexchange =>
      have hrisk : min (min requested exchange) risk = risk := by
        rcases min_choice (min requested exchange) risk with h | h
        · rcases min_choice requested exchange with h' | h'
          · exact absurd (h.trans h') hne
          · exact absurd (h.trans h') hexchange
        · exact h
      exact ⟨rfl, ⟨fun h => (nomatch h), fun h => absurd h hne⟩, fun _ => ⟨rfl, .inr ⟨rfl, hrisk⟩⟩⟩

theorem rule_settles (links : Links) :
    Settles links (rule links).approvedLeverage (rule links).outcome (rule links).bindingConstraint where
  known requested exchange risk h := by
    rw [rule_known h]
    exact resolveKnown_bound requested _ _
  minimum := rule_atMinimum
  otherwise := rule_otherwise

end Rule

section Run

variable {field : DecimalField} {links learned : Links} {ruling : Ruling}

/-- Every decimal handed over is one the decision's fields read. -/
def Links.Readable (links : Links) (field : DecimalField) : Prop :=
  ∀ p ∈ links.handed, (field.read p.2).isSome

theorem decision_of_readable (h : links.Readable field) (ruling : Ruling) :
    ∃ d, decision field links ruling = .ok d ∧ d.approvedLeverage = ruling.approvedLeverage ∧
      d.outcome = ruling.outcome ∧ d.bindingConstraint = ruling.bindingConstraint := by
  have hnone : links.handed.filter (fun (_, value) => (field.read value).isNone) = [] := by
    rw [List.filter_eq_nil_iff]
    intro p hp
    have hread := h p hp
    rw [Option.isSome_iff_ne_none] at hread
    simpa using hread
  rw [decision, hnone]
  exact ⟨_, rfl, rfl, rfl, rfl⟩

theorem readable_of_decision {d : LeverageDecision} (h : decision field links ruling = .ok d) :
    links.Readable field := by
  rw [decision] at h
  split at h
  next hnone =>
    intro p hp
    have hread := (List.filter_eq_nil_iff.mp hnone) p hp
    cases hvalue : field.read p.2 with
    | none => simp [hvalue] at hread
    | some v => rfl
  · cases h

theorem usable_readable {handed : Handed} (h : handed.Usable) : (field.read handed).isSome := by
  obtain ⟨value, rfl, -⟩ := h
  rw [field.read_finite]
  rfl

theorem readable_learned (h : links.Readable field) (hlearns : links.Learns learned) :
    learned.Readable field := by
  intro p hp
  cases hlearns with
  | exchange ceiling hnone husable =>
      simp only [Links.handed, Option.map_some, Option.toList_some, List.mem_append, List.mem_singleton] at hp
      rcases hp with ((hp | rfl) | hp) | hp
      · exact h p (by simp [Links.handed, hp])
      · exact usable_readable husable
      · exact h p (by simp only [Links.handed, List.mem_append]; tauto)
      · exact h p (by simp only [Links.handed, List.mem_append]; tauto)
  | risk ceiling hnone husable =>
      simp only [Links.handed, Option.map_some, Option.toList_some, List.mem_append, List.mem_singleton] at hp
      rcases hp with ((hp | hp) | rfl) | hp
      · exact h p (by simp [Links.handed, hp])
      · exact h p (by simp only [Links.handed, List.mem_append]; tauto)
      · exact usable_readable husable
      · exact h p (by simp only [Links.handed, List.mem_append]; tauto)

/-- With a ceiling unknown the chain approves 1x or nothing. -/
theorem atMinimum_of_approved (hlearns : links.Learns learned) {a : Decimal}
    (ha : (rule links).approvedLeverage = some a) : links.AtMinimum := by
  by_contra hminimum
  have hknown : ¬ ∃ requested exchange risk, links.Known requested exchange risk := by
    rintro ⟨requested, exchange, risk, h⟩
    cases hlearns with
    | exchange ceiling hnone husable =>
        obtain ⟨c, hc, -⟩ := h.exchange
        rw [hnone] at hc
        cases hc
    | risk ceiling hnone husable =>
        obtain ⟨c, hc, -⟩ := h.risk
        rw [hnone] at hc
        cases hc
  rw [(rule_otherwise hminimum hknown).1] at ha
  cases ha

theorem rule_learned (hlearns : links.Learns learned) (h : links.AtMinimum) :
    (rule learned).approvedLeverage = some leverageMin ∧ (rule learned).outcome = .approved := by
  obtain ⟨hrequest, hexchange, hrisk, hmissing⟩ := h
  have hexchange' : ∀ c ∈ learned.exchangeMax, c.Usable := by
    cases hlearns with
    | exchange ceiling hnone husable =>
        rintro c ⟨⟩
        exact husable
    | risk ceiling hnone husable => exact hexchange
  have hrisk' : ∀ c ∈ learned.riskMax, c.Usable := by
    cases hlearns with
    | exchange ceiling hnone husable => exact hrisk
    | risk ceiling hnone husable =>
        rintro c ⟨⟩
        exact husable
  have hrequest' : ∃ r ∈ learned.request, r.requestedLeverage.Valid leverageMin := by
    cases hlearns <;> exact hrequest
  by_cases hmissing' : learned.exchangeMax = none ∨ learned.riskMax = none ∨ learned.riskEngineAvailable = false
  · exact rule_atMinimum ⟨hrequest', hexchange', hrisk', hmissing'⟩
  -- the last link is known: the least of the three is the request, as no valid ceiling is below it
  push Not at hmissing'
  obtain ⟨he, hk, havailable⟩ := hmissing'
  obtain ⟨c, hc⟩ := Option.ne_none_iff_exists'.mp he
  obtain ⟨k, hk⟩ := Option.ne_none_iff_exists'.mp hk
  obtain ⟨exchange, hexchange⟩ := hexchange' c hc
  obtain ⟨risk, hrisk⟩ := hrisk' k hk
  have hleast : min (min leverageMin exchange) risk = leverageMin := by
    rw [min_eq_left hexchange.2.1, min_eq_left hrisk.2.1]
  rw [rule_known ⟨hrequest', ⟨c, hc, hexchange⟩, ⟨k, hk, hrisk⟩, by simpa using havailable⟩]
  obtain ⟨happroved, hbound, -⟩ := resolveKnown_bound leverageMin exchange risk
  exact ⟨happroved.trans (congrArg some hleast), hbound.mpr hleast⟩

/-- What a decision says when one more ceiling is known. -/
def Keeps (before after : LeverageDecision) : Prop :=
  (∀ a ∈ before.approvedLeverage, ∀ b ∈ after.approvedLeverage, b ≤ a) ∧
    (before.approvedLeverage = some leverageMin →
      after.approvedLeverage = some leverageMin ∧ after.outcome = before.outcome)

/-- The chain fails closed and is exact on what its decision can carry, and
only there: anything else escapes as an error of the model. -/
theorem resolveLeverage_exact_iff (field : DecimalField) (links : Links) :
    (∃ d, resolveLeverage field links = .ok d ∧
        Settles links d.approvedLeverage d.outcome d.bindingConstraint ∧
        ∀ learned, links.Learns learned → ∃ d', resolveLeverage field learned = .ok d' ∧ Keeps d d') ↔
      links.Readable field := by
  constructor
  · rintro ⟨d, hd, -⟩
    exact readable_of_decision hd
  intro h
  obtain ⟨d, hd, happroved, houtcome, hnamed⟩ := decision_of_readable h (rule links)
  refine ⟨d, hd, ?_, ?_⟩
  · rw [happroved, houtcome, hnamed]
    exact rule_settles links
  intro learned hlearns
  obtain ⟨d', hd', happroved', houtcome', -⟩ :=
    decision_of_readable (readable_learned h hlearns) (rule learned)
  refine ⟨d', hd', ?_, ?_⟩
  · intro a ha b hb
    rw [happroved] at ha
    have hminimum := atMinimum_of_approved hlearns ha
    rw [(rule_atMinimum hminimum).1] at ha
    rw [happroved', (rule_learned hlearns hminimum).1] at hb
    cases ha
    cases hb
    exact le_rfl
  · intro ha
    rw [happroved] at ha
    have hminimum := atMinimum_of_approved hlearns ha
    rw [happroved', houtcome', houtcome, (rule_atMinimum hminimum).2]
    exact rule_learned hlearns hminimum

end Run

/-- A field that reads decimals only. -/
def strictField : DecimalField where
  read
    | .finite value => some value
    | _ => none
  read_finite _ := rfl
  read_nonFinite _ := rfl

def notANumber : Links where
  request := some { requestedLeverage := .finite 10, basis := "a candidate" }
  exchangeMax := some (.nonFinite "NaN")
  riskMax := some (.finite 10)
  riskEngineAvailable := true

/-- The chain rules a ceiling that is not a number invalid, and the decision
cannot be built. -/
theorem notANumber_escapes : ¬ ∃ d, resolveLeverage strictField notANumber = .ok d ∧
    Settles notANumber d.approvedLeverage d.outcome d.bindingConstraint := by
  rintro ⟨d, hd, -⟩
  have hread := readable_of_decision hd ("exchange_max_leverage", .nonFinite "NaN") (by simp [Links.handed, notANumber])
  cases hread

section Refinement

def ofRequest (request : LeverageRequest) : Request where
  requestedLeverage := .finite request.requestedLeverage
  basis := request.basis
  inputs := request.inputs.map (fun (name, v) => (name, .finite v))

def Ruling.on (ruling : Ruling) (request : LeverageRequest) (exchangeMax riskMax : Option Decimal) :
    LeverageDecision :=
  { common request exchangeMax riskMax ruling.outcome ruling.reason ruling.detail with
    approvedLeverage := ruling.approvedLeverage
    bindingConstraint := ruling.bindingConstraint }

variable (request : LeverageRequest) (exchangeMax riskMax : Option Decimal) (available : Bool)

theorem malformed_finite (ceiling : Option Decimal) (name : String) :
    malformed (ceiling.map .finite) name = Leverage.malformed ceiling name := by
  cases ceiling with
  | none => rfl
  | some value =>
      simp only [malformed, Leverage.malformed, Option.map_some, Option.any_some, Handed.validateCeiling]
      cases Leverage.validateCeiling value name <;> rfl

theorem domainMinimumDecision_finite :
    (domainMinimumDecision request.requestedLeverage (exchangeMax.map .finite) (riskMax.map .finite)).map
        (·.on request exchangeMax riskMax) =
      Leverage.domainMinimumDecision request exchangeMax riskMax := by
  rw [domainMinimumDecision, Leverage.domainMinimumDecision, malformed_finite, malformed_finite]
  split
  · rfl
  split <;> rfl

theorem resolveKnown_finite (exchange risk : Decimal) :
    (resolveKnown request.requestedLeverage exchange risk).on request (some exchange) (some risk) =
      Leverage.resolveKnown request exchange risk := by
  rw [resolveKnown, Leverage.resolveKnown]
  split
  · rfl
  split <;> rfl

theorem resolveConstrained_finite :
    (resolveConstrained request.requestedLeverage (exchangeMax.map .finite) (riskMax.map .finite) available).on
        request exchangeMax riskMax =
      Leverage.resolveConstrained request exchangeMax riskMax available := by
  cases exchangeMax with
  | none => rfl
  | some exchange =>
      rw [Option.map_some, resolveConstrained, Leverage.resolveConstrained.eq_def, Handed.validateCeiling]
      dsimp only
      cases Leverage.validateCeiling exchange "exchange_max_leverage" with
      | some problem => rfl
      | none =>
          cases available with
          | false => rfl
          | true =>
              cases riskMax with
              | none => rfl
              | some risk =>
                  dsimp only [Option.map_some, resolveRisk]
                  rw [Handed.validateCeiling]
                  cases Leverage.validateCeiling risk "risk_max_leverage" with
                  | some problem => rfl
                  | none => exact resolveKnown_finite request exchange risk

theorem resolveRequest_finite :
    (resolveRequest (.finite request.requestedLeverage) (exchangeMax.map .finite) (riskMax.map .finite)
        available).on request exchangeMax riskMax =
      Leverage.resolveLeverage (some request) exchangeMax riskMax available := by
  rw [resolveRequest, Leverage.resolveLeverage, Handed.validateCeiling]
  cases Leverage.validateCeiling request.requestedLeverage "requested_leverage" with
  | some problem => rfl
  | none =>
      simp only [Option.isNone_map]
      split
      · rw [← domainMinimumDecision_finite, ← resolveConstrained_finite]
        cases domainMinimumDecision request.requestedLeverage (exchangeMax.map .finite) (riskMax.map .finite) <;>
          rfl
      · exact resolveConstrained_finite request exchangeMax riskMax available

end Refinement

section Carried

variable (field : DecimalField) (exchangeMax riskMax : Option Decimal) (available : Bool)

def ofRequests (request : Option LeverageRequest) : Links where
  request := request.map ofRequest
  exchangeMax := exchangeMax.map .finite
  riskMax := riskMax.map .finite
  riskEngineAvailable := available

theorem readable_finite (request : Option LeverageRequest) :
    (ofRequests exchangeMax riskMax available request).Readable field := by
  intro p hp
  have hfinite : ∃ value, p.2 = .finite value := by
    simp only [Links.handed, ofRequests, List.mem_append, Option.mem_toList, Option.map_map] at hp
    rcases hp with ((hp | hp) | hp) | hp
    · cases request with
      | none => cases hp
      | some r => cases hp; exact ⟨_, rfl⟩
    · cases exchangeMax with
      | none => cases hp
      | some c => cases hp; exact ⟨_, rfl⟩
    · cases riskMax with
      | none => cases hp
      | some c => cases hp; exact ⟨_, rfl⟩
    · cases request with
      | none => cases hp
      | some r =>
          simp only [Option.map_some, Option.elim_some, ofRequest, List.map_map, List.mem_map] at hp
          obtain ⟨q, -, rfl⟩ := hp
          exact ⟨q.2, rfl⟩
  obtain ⟨value, hvalue⟩ := hfinite
  rw [hvalue, field.read_finite]
  rfl

/-- On a request its model has checked and finite ceilings, the chain is the one
the risk engine calls. -/
theorem resolveLeverage_finite (request : Option LeverageRequest) :
    resolveLeverage field (ofRequests exchangeMax riskMax available request) =
      .ok (Leverage.resolveLeverage request exchangeMax riskMax available) := by
  have hread (c : Option Decimal) : (c.map Handed.finite).bind field.read = c := by
    cases c with
    | none => rfl
    | some v => exact field.read_finite v
  have hnone : (ofRequests exchangeMax riskMax available request).handed.filter
      (fun (_, value) => (field.read value).isNone) = [] := by
    rw [List.filter_eq_nil_iff]
    intro p hp
    have h := readable_finite field exchangeMax riskMax available request p hp
    rw [Option.isSome_iff_ne_none] at h
    simpa using h
  rw [resolveLeverage, decision, hnone]
  cases request with
  | none => simp [ofRequests, hread, rule, Leverage.resolveLeverage]
  | some r =>
      rw [← resolveRequest_finite]
      simp [ofRequests, ofRequest, hread, rule, Ruling.on, common, field.read_finite, List.filterMap_map]

end Carried

end Aetheris.LeverageChain
