import Aetheris.PaperWorld

namespace Aetheris.PaperApproval

open Lib Mutation Coroutine Money Clock Enums Leverage RiskEngine OrderIdentity RiskEnvelope PaperRecords PaperGate
  PaperPricing PaperEngine PaperLedger PaperRefinement PaperRuns PaperAccounts PaperService PaperWorld
  PaperTradingService

section Sizes

variable {request : SubmitOrderRequest} {price leverage quantity margin : Decimal} {filters : Option SymbolFilters}

theorem toStep_ok {step : Decimal} (h : toStep quantity step = .ok leverage) :
    0 < step ∧ leverage = truncDiv quantity step * step := by
  rw [toStep, mapError_ok] at h
  exact floorToStep_ok.mp h

/-- The quantity is what the margin buys, less what the step takes off. -/
theorem resolveQuantity_margin (hmargin : request.margin = some margin) (hquantity : request.quantity = none)
    (h : resolveQuantity request price leverage filters = .ok quantity) :
    ∃ step, 0 < step ∧ price ≠ 0 ∧ quantity = truncDiv (margin * leverage / price) step * step := by
  cases filters with
  | none =>
      simp only [resolveQuantity, requestedQuantity, hmargin, hquantity, bind_ok, divided_ok, declining_ok] at h
      obtain ⟨_, ⟨hprice, rfl⟩, _, hstep, _, _, hresult⟩ := h
      cases hresult
      obtain ⟨hpos, rfl⟩ := toStep_ok hstep
      exact ⟨_, hpos, hprice, rfl⟩
  | some filters =>
      simp only [resolveQuantity, requestedQuantity, hmargin, hquantity, bind_ok, divided_ok, declining_ok] at h
      obtain ⟨_, ⟨hprice, rfl⟩, _, hstep, _, _, _, _, _, _, hresult⟩ := h
      cases hresult
      obtain ⟨hpos, rfl⟩ := toStep_ok hstep
      exact ⟨_, hpos, hprice, rfl⟩

/-- What a margin at its leverage buys costs no more than it, at whatever price. -/
theorem cost_le (hmargin : request.margin = some margin) (hquantity : request.quantity = none)
    (h : resolveQuantity request price leverage filters = .ok quantity) (hnonneg : 0 ≤ margin * leverage)
    (hprice : 0 < price) : quantity * price ≤ margin * leverage := by
  obtain ⟨step, hstep, _, rfl⟩ := resolveQuantity_margin hmargin hquantity h
  have htrunc : truncDiv (margin * leverage / price) step * step ≤ margin * leverage / price :=
    truncDiv_mul_le hstep (div_nonneg hnonneg hprice.le)
  exact (le_div_iff₀ hprice).mp htrunc

end Sizes

/-- What a verdict leaves to a position: the margin it approved, and its leverage. -/
structure WithinVerdict (verdict : RiskVerdict) (t : EntryTerms) : Prop where
  margin : ∃ m ∈ verdict.approvedMargin, t.margin ≤ m
  leverage : verdict.leverage.approvedLeverage = some t.approvedLeverage

variable [Runtime] {config : PaperEngineConfig} {service : PaperTradingService} {request : SubmitOrderRequest}
  {requestedLeverage : Decimal} {origin : String} {now : Timestamp} {mark : MarkPrice} {view : RiskAccountView}
  {volatility : VolatilityMeasurement} {listed : Listing} {marks : Marks} {verdict : RiskVerdict}

/-- Two roundings lie between the margin that was approved and the one that is
held. Neither takes it past a whole unit, since a leverage of more than one
divides the first by more than the second can give back. -/
theorem entry_within {state : PaperState} {symbol : String} {filters : Option SymbolFilters} {paperEnabled : Bool}
    {asked : SubmitOrderRequest} {entry : Entry} {proposal : RiskProposal} {market : RiskMarketView}
    {policy : RiskPolicy} {mark : MarkPrice}
    (hverdict : evaluate proposal view market policy now = .ok verdict) (happroved : verdict.approved = true)
    (hmargin : asked.margin = verdict.approvedMargin) (hquantity : asked.quantity = none)
    (hentry : considerOrder config state asked symbol mark filters verdict.leverage paperEnabled = .ok entry) :
    ∃ m ∈ verdict.approvedMargin, entry.margin ≤ m := by
  obtain ⟨price, l, notional, hcleared⟩ := evaluate_cleared hverdict happroved
  obtain ⟨_, _, hpermitted⟩ := hcleared.leverage
  have hconsidered := considerOrder_ok hentry
  have hsized := considerOrder_sized hentry
  have hl : entry.approvedLeverage = l := Option.some.inj (hconsidered.approved.symm.trans hcleared.approvedLeverage)
  have hone : leverageMin ≤ entry.approvedLeverage := hl ▸ hpermitted.min
  have hpositive : 0 ≤ entry.approvedLeverage := le_trans (by norm_num [leverageMin]) hone
  refine ⟨_, hcleared.approvedMargin, ?_⟩
  have hasked : asked.margin = some (quantizeUsdt (notional / l)) := hmargin.trans hcleared.approvedMargin
  have hpaid : 0 ≤ quantizeUsdt (notional / l) := (considerOrder_margin_pos hentry _ hasked).le
  have hcost : entry.quantity * entry.price ≤ quantizeUsdt (notional / l) * entry.approvedLeverage :=
    cost_le hasked hquantity hsized.quantity (mul_nonneg hpaid hpositive) hconsidered.price_pos
  rw [hsized.margin]
  refine margin_le (eightPlaces_quantizeUsdt _) hone le_rfl ?_
  rw [hconsidered.notional_eq]
  exact quantizeUsdt_mono hcost

/-- What an approved submission opens is within its verdict. -/
theorem admitted_within
    (hverdict : evaluate (proposal request (Runtime.upper request.symbol) mark requestedLeverage) view
      (marketView mark volatility listed) (service.policy origin) now = .ok verdict)
    (happroved : verdict.approved = true) (r : Repository) :
    (approvedCall service request now mark listed marks verdict).Admitted
      (fun _ t => t.symbol = Runtime.upper request.symbol ∧ WithinVerdict verdict t) config r := by
  intro entry hentry orderId positionId
  obtain ⟨_, hdecided⟩ := considerOrder_of_entryOf hentry
  exact ⟨rfl, entry_within hverdict happroved rfl rfl hdecided, (considerOrder_ok hdecided).approved⟩

/-- What is open after a call was open before it, on the same terms, or was admitted by it. -/
theorem held_or_admitted {P : EntryTerms → Prop} {r : Repository} {op : Operation} (hkeyed : Keyed (ledger r))
    (hop : op.Admitted (fun _ t => P t) config r) {p : MutablePosition}
    (hp : p ∈ (after config r op).state.positions.values) :
    (∃ q ∈ r.state.positions.values, q.toEntryTerms = p.toEntryTerms) ∨ P p.toEntryTerms := by
  have hmoves := after_moves hkeyed hop
  have hall : ∀ t ∈ (ledger (after config r op)).positions.values, t ∈ (ledger r).positions.values ∨ P t := by
    refine reflTransGen_invariant (I := fun l => ∀ t ∈ l.positions.values, t ∈ (ledger r).positions.values ∨ P t)
      (fun l m hm h => ?_) hmoves fun t ht => .inl ht
    cases hm with
    | start _ => exact h
    | enter _ _ _ hfree _ hadmitted =>
        intro t ht
        rcases Dict.mem_values_set hfree ht with rfl | ht
        · exact .inr hadmitted
        · exact h t ht
    | leave _ _ _ _ _ _ _ => exact fun t ht => h t (Dict.mem_values_erase ht)
  exact (hall _ (mem_terms.mpr ⟨p, hp, rfl⟩)).imp_left mem_terms.mp

/-- After the call nothing is open that was not open before, but what a verdict
on the request approved, and no more of it. -/
def KeepsToApproval (config : PaperEngineConfig) (service : PaperTradingService) (request : SubmitOrderRequest)
    (requestedLeverage : Decimal) (origin : String) (r : Repository) (op : Operation) : Prop :=
  ∀ p ∈ (after config r op).state.positions.values,
    (∃ q ∈ r.state.positions.values, q.toEntryTerms = p.toEntryTerms) ∨
      ∃ now mark view volatility listed marks verdict,
        evaluate (proposal request (Runtime.upper request.symbol) mark requestedLeverage) view
          (marketView mark volatility listed) (service.policy origin) now = .ok verdict ∧
        verdict.approved = true ∧ op = approvedCall service request now mark listed marks verdict ∧
        p.symbol = Runtime.upper request.symbol ∧ WithinVerdict verdict p.toEntryTerms

theorem keepsToApproval_of_submits {op : Operation} (h : Submits service request requestedLeverage origin op)
    {r : Repository} (hkeyed : Keyed (ledger r)) :
    KeepsToApproval config service request requestedLeverage origin r op := by
  have hnothing (hop : op.Admitted (fun _ _ => False) config r) :
      KeepsToApproval config service request requestedLeverage origin r op :=
    fun p hp => .inl ((held_or_admitted hkeyed hop hp).resolve_right id)
  cases h with
  | approved hverdict happroved =>
      intro p hp
      refine (held_or_admitted hkeyed (admitted_within hverdict happroved r) hp).imp_right fun ⟨hsymbol, hwithin⟩ => ?_
      exact ⟨_, _, _, _, _, _, _, hverdict, happroved, rfl, hsymbol, hwithin⟩
  | unlisted =>
      refine hnothing fun entry hentry => ?_
      exact nomatch (considerOrder_ok (considerOrder_of_entryOf hentry).2).approved
  | refuse => exact hnothing trivial
  | replay _ => exact hnothing trivial
  | snapshot => exact hnothing trivial

variable (config) in
theorem keyed_calls (startingBalance : Decimal) (now : Timestamp) (durability : Durability) (calls : List Call) :
    Keyed (ledger (runCalls config (opening startingBalance now durability) calls)) :=
  (calls_invariant (I := fun _ => True) (fun _ _ _ _ _ => trivial) (fun _ _ => admitted_unrestricted)
    (fun _ _ _ => trivial) startingBalance now durability calls).1

/-- Whatever the service is answered while it submits an order, and on whatever
account its engine calls find: a position it opens takes no more margin than
evaluate approved for that order, and has the leverage it approved. -/
theorem margin_within_approval (config : PaperEngineConfig) (service : PaperTradingService)
    (startingBalance : Decimal) (now : Timestamp) (durability : Durability) (calls : List Call)
    (request : SubmitOrderRequest) (requestedLeverage : Decimal) (origin : String) :
    let r := runCalls config (opening startingBalance now durability) calls
    (service.submitLocked request requestedLeverage origin).Performs fun f =>
      ∀ op, f.operation? = some op → KeepsToApproval config service request requestedLeverage origin r op :=
  performs_mono (fun _ hf op hop => keepsToApproval_of_submits (hf op hop) (keyed_calls _ _ _ _ _))
    (performs_submitLocked request requestedLeverage origin)

end Aetheris.PaperApproval
