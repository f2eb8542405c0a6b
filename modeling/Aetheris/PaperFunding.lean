import Mathlib.Algebra.Order.BigOperators.Group.List
import Aetheris.PaperSizing

namespace Aetheris.PaperFunding

open Lib Mutation Money Clock Enums Leverage RiskEngine OrderIdentity PaperRecords PaperGate PaperPricing PaperEngine
  PaperLedger PaperConservation PaperRefinement PaperRuns PaperAccounts PaperOutcomes PaperAtomicity PaperSizing

/-- Margins are kept with eight decimals. -/
def MarginPlaces (positions : Dict String EntryTerms) : Prop := ∀ t ∈ positions.values, EightPlaces t.margin

section Margins

variable {config : PaperEngineConfig} [Runtime] {r : Repository} {op : Operation}

theorem marginPlaces_admitted : op.Admitted (fun _ t => EightPlaces t.margin) config r := by
  cases op with
  | submitOrder request now mark filters leverage paperEnabled marks detail checks riskMax =>
      intro entry hentry orderId positionId
      have hsized := considerOrder_sized (considerOrder_of_entryOf hentry).2
      change EightPlaces entry.margin
      rw [hsized.margin]
      exact eightPlaces_quantizeUsdt _
  | _ => trivial

theorem marginPlaces_run (startingBalance : Decimal) (now : Timestamp) (durability : Durability) (calls : List Call) :
    let r := runCalls config (opening startingBalance now durability) calls
    ∀ p ∈ r.state.positions.values, EightPlaces p.margin := by
  intro r
  have hmargins : MarginPlaces (ledger r).positions :=
    terms_run (fun _ _ => marginPlaces_admitted) startingBalance now durability calls
  exact fun p hp => hmargins p.toEntryTerms (mem_terms hp)

end Margins

section Reports

variable {config : PaperEngineConfig} {now : Timestamp} {marks : Marks} {r t : Repository} {account : PaperAccount}

/-- Cash not posted as margin, as the account shows it. -/
def shown (s : PaperState) : Decimal := quantizeUsdt (s.balance - quantizeUsdt (s.positions.total fun p => p.margin))

theorem buildAccount_returned (h : ((buildAccount config now marks).run r).1 = .ok account) :
    account.availableBalance = shown r.state ∧ Reportable r.state := by
  rw [buildAccount, run_bind_ok load_run] at h
  rcases hmodels : (reportPositions config now marks r.state.positions.values).run r with ⟨e | models, u⟩
  · rw [run_bind_error hmodels] at h
    cases h
  · obtain ⟨rfl, rfl, hall⟩ := reportPositions_returned hmodels
    rw [run_bind_ok hmodels] at h
    obtain ⟨session, _, _, h⟩ := of_run_bind h
    obtain ⟨_, _, _, h⟩ := of_run_bind h
    cases h
    refine ⟨?_, hall⟩
    have hmargins : ((u.state.positions.values.map (positionModel config now marks)).map fun p => p.margin).sum =
        u.state.positions.total fun p => p.margin := by
      rw [List.map_map, Dict.total]
      refine congrArg List.sum (List.map_congr_left fun p _ => ?_)
      exact congrArg EntryTerms.margin (positionModel_terms _ _ _ p)
    change quantizeUsdt (_ - quantizeUsdt _) = _
    rw [hmargins]
    rfl

/-- A call that ends by reporting the account shows what it leaves. -/
theorem reporting_returned {result : PaperOrderResult} {f : PaperAccount → PaperOrderResult}
    (hf : ∀ account, (f account).account = account)
    (h : ((buildAccount config now marks >>= fun account => pure (f account)).run r).1 = .ok result) :
    result.account.availableBalance = shown r.state ∧ Reportable r.state := by
  rcases hbuilt : (buildAccount config now marks).run r with ⟨e | account, u⟩
  · rw [run_bind_error hbuilt] at h
    cases h
  · rw [run_bind_ok hbuilt] at h
    cases h
    rw [hf]
    exact buildAccount_returned (congrArg Prod.fst hbuilt)

theorem reportHeld_returned {held : Option MutablePosition} {model : Option PaperPosition}
    (h : (reportHeld config now marks held).run r = (.ok model, t)) : t = r := by
  cases held with
  | none =>
      cases h
      rfl
  | some p =>
      obtain ⟨_, _, hp, _⟩ := of_run_bind (congrArg Prod.fst h)
      rw [reportHeld, run_bind_ok (reportPosition_run (reported_of_run (congrArg Prod.fst hp)))] at h
      cases h
      rfl

theorem onDay_shown (n : Nat) : shown (withSequence n (onDay config now r)).state = shown r.state := by
  change shown (onDay config now r).state = _
  rw [onDay_state]
  rfl

end Reports

section Submissions

variable {config : PaperEngineConfig} {now : Timestamp} {marks : Marks} {r : Repository} {request : SubmitOrderRequest}
  {symbol id : String} {entry : Entry} {leverage : LeverageDecision} {age : Option Decimal} {detail : Option String}
  {from_ : Provenance} {result : PaperOrderResult}

/-- What an entry that was reported leaves to trade with. -/
theorem openPosition_shown (hopened : Opened now r)
    (h : ((openPosition config request symbol id entry now leverage age marks detail from_).run r).1 = .ok result) :
    Bookable config entry ∧ ∃ order orderId positionId, result.account.availableBalance = shown (filled config now order
      (openedPosition config request symbol entry now orderId positionId) r).state ∧
      Reportable (filled config now order (openedPosition config request symbol entry now orderId positionId) r).state := by
  obtain ⟨_, _, hreports⟩ := openPosition_returned h
  have hbookable : Bookable config entry :=
    ⟨hreports.quantity, hreports.entryPrice, hreports.notional, hreports.margin, hreports.leverage, hreports.entryFee⟩
  obtain ⟨session, hsession⟩ := ensureSession_opened config hopened
  rw [openPosition, run_bind_ok hsession, run_bind_ok nextSequence_run, run_bind_ok nextSequence_run] at h
  dsimp only at h
  rw [run_bind_ok modify_run, run_bind_ok nextSequence_run, run_bind_ok (building_run ?_),
    run_bind_ok (building_run ?_), run_bind_ok recordOrder_run, run_bind_ok touch_run,
    run_bind_ok (reportPosition_run (hbookable.reports ..))] at h
  · exact ⟨hbookable, _, _, _, reporting_returned (fun _ => rfl) h⟩
  · simp only [PaperOrder.validates, Bool.and_eq_true, decide_eq_true_eq]
    exact ⟨hbookable.quantity, hbookable.quantity.le⟩
  · simp only [PaperFill.validates, Bool.and_eq_true, decide_eq_true_eq]
    exact ⟨⟨hbookable.price, hbookable.quantity⟩, hbookable.fee⟩

theorem shown_of_places (h : ∀ p ∈ r.state.positions.values, EightPlaces p.margin) :
    shown r.state = quantizeUsdt (availableBalance r.state) := by
  have htotal : EightPlaces (r.state.positions.total fun p => p.margin) :=
    Lib.FixedPoint.grid_sum (List.forall_mem_map.mpr h)
  rw [shown, quantizeUsdt_of_eightPlaces htotal, availableBalance]

/-- After the fee nothing is short exactly if margin and fee were both there before. -/
theorem shown_filled_iff {order : PaperOrder} {position : MutablePosition}
    (hplaces : ∀ p ∈ r.state.positions.values, EightPlaces p.margin) (hmargin : EightPlaces position.margin)
    (hfee : EightPlaces position.entryFee) (hfree : position.symbol ∉ r.state.positions.keys)
    (hreports : ∀ p ∈ r.state.positions.values, Reports p.toEntryTerms) (hposition : Reports position.toEntryTerms) :
    0 ≤ shown (filled config now order position r).state ↔
      position.margin + position.entryFee ≤ quantizeUsdt (availableBalance r.state) := by
  let posted := r.state.positions.total fun p => p.margin
  have hposted : EightPlaces posted := Lib.FixedPoint.grid_sum (List.forall_mem_map.mpr hplaces)
  have hnonneg : 0 ≤ posted := List.sum_nonneg (List.forall_mem_map.mpr fun p hp => (hreports p hp).margin.le)
  have hpos : 0 < posted + position.margin := add_pos_of_nonneg_of_pos hnonneg hposition.margin
  have hcost : 0 < position.margin + position.entryFee := add_pos_of_pos_of_nonneg hposition.margin hposition.entryFee
  have htotal : (r.state.positions.set position.symbol position).total (fun p => p.margin) = posted + position.margin :=
    Dict.total_set (fun p => p.margin) hfree
  let cash := quantizeUsdt (r.state.balance + -position.entryFee)
  have hleft : shown (filled config now order position r).state = cash - (posted + position.margin) := by
    change quantizeUsdt (cash - quantizeUsdt ((r.state.positions.set position.symbol position).total fun p => p.margin)) = _
    rw [htotal, quantizeUsdt_of_eightPlaces (hposted.add hmargin),
      quantizeUsdt_of_eightPlaces ((eightPlaces_quantizeUsdt _).sub (hposted.add hmargin))]
  have hbefore : availableBalance r.state = r.state.balance - posted := rfl
  rw [hleft, sub_nonneg, le_quantizeUsdt_iff (hposted.add hmargin) hpos, hbefore,
    le_quantizeUsdt_iff (hmargin.add hfee) hcost]
  constructor
  · intro h
    linarith
  · intro h
    linarith

end Submissions

section Runs

variable [Runtime]

/-- What is there covers the margin and the entry fee; a repetition of an order meets an account that is not short. -/
def Covered (config : PaperEngineConfig) (r : Repository) (request : SubmitOrderRequest) (now : Timestamp)
    (mark : MarkPrice) (filters : Option SymbolFilters) (leverage : LeverageDecision) (paperEnabled : Bool) : Prop :=
  match repeated r request with
  | some _ => 0 ≤ quantizeUsdt (availableBalance r.state)
  | none => ∀ entry, decisionOn config r request now mark filters leverage paperEnabled = .ok entry →
      entry.margin + entryFee config entry ≤ quantizeUsdt (availableBalance r.state)

section Acceptance

variable {config : PaperEngineConfig} {now : Timestamp} {marks : Marks} {r : Repository} {request : SubmitOrderRequest}
  {mark : MarkPrice} {filters : Option SymbolFilters} {leverage : LeverageDecision} {paperEnabled : Bool}
  {detail : Option String} {checks : List String} {riskMax : Option Decimal} {result : PaperOrderResult}

theorem replayed_shown {existing : PaperOrder} (hknown : repeated r request = some existing)
    (h : ((PaperEngine.submitOrder config request now mark filters leverage paperEnabled marks detail checks
      riskMax).run r).1 = .ok result) : result.account.availableBalance = shown r.state := by
  obtain ⟨session, hsession, _⟩ := ensureSession_ok config now r
  rw [PaperEngine.submitOrder, run_bind_ok hsession] at h
  dsimp only at h
  rw [run_bind_ok (clientOrderIdOf_run request), run_bind_ok load_run, repeated_identified, hknown] at h
  dsimp only at h
  rw [replayed, run_bind_ok load_run] at h
  obtain ⟨model, t, hheld, h⟩ := of_run_bind h
  rw [reportHeld_returned hheld] at h
  exact (reporting_returned (fun _ => rfl) h).1.trans (onDay_shown _)

theorem submitOrder_covered_iff (hplaces : ∀ p ∈ r.state.positions.values, EightPlaces p.margin)
    (h : ((PaperEngine.submitOrder config request now mark filters leverage paperEnabled marks detail checks
      riskMax).run r).1 = .ok result) (haccepted : result.accepted = true) :
    0 ≤ result.account.availableBalance ↔ Covered config r request now mark filters leverage paperEnabled := by
  rw [Covered]
  cases hknown : repeated r request with
  | some existing =>
      dsimp only
      rw [replayed_shown hknown h, shown_of_places hplaces]
  | none =>
      dsimp only
      obtain ⟨_, _, hopened⟩ := ensureSession_ok config now r
      rw [submitOrder_decided _ _ _ _ _ _ _ _ _ _ _ hknown] at h
      match hdecision : decisionOn config r request now mark filters leverage paperEnabled with
      | .error (.refused refusal) | .error (.ruled refusal) =>
          rw [hdecision] at h
          rw [reject_unaccepted h] at haccepted
          cases haccepted
      | .error (.raised e) =>
          rw [hdecision] at h
          cases h
      | .ok entry =>
          rw [hdecision] at h
          have hopened' : Opened now (identified config now request r) := hopened
          obtain ⟨hbookable, order, orderId, positionId, hshown, hreportable⟩ := openPosition_shown hopened' h
          have hplaces' : ∀ p ∈ (identified config now request r).state.positions.values, EightPlaces p.margin := by
            change ∀ p ∈ (onDay config now r).state.positions.values, _
            rw [onDay_positions]
            exact hplaces
          have hfree : Runtime.upper request.symbol ∉ (identified config now request r).state.positions.keys :=
            (considerOrder_ok hdecision).admitted.free
          have hmargin : EightPlaces entry.margin := by
            rw [(considerOrder_sized hdecision).margin]
            exact eightPlaces_quantizeUsdt _
          have hbefore : ∀ p ∈ (identified config now request r).state.positions.values, Reports p.toEntryTerms :=
            fun p hp => hreportable p (Dict.mem_values_set_of_mem hfree hp)
          have hcash : availableBalance (identified config now request r).state = availableBalance r.state := by
            change availableBalance (onDay config now r).state = _
            rw [onDay_state]
            rfl
          rw [hshown, shown_filled_iff hplaces' hmargin (eightPlaces_quantizeUsdt _) hfree hbefore (hbookable.reports ..),
            hcash]
          exact ⟨fun hcovered e he => by cases he; exact hcovered, fun hcovered => hcovered entry rfl⟩

end Acceptance

/-- An entry that is accepted leaves no shortfall exactly if what was available, as the account showed it, covers
the margin and the entry fee together; the repetition of a filled order, if the account is not short as it stands. -/
theorem accepted_funded_iff (config : PaperEngineConfig) (startingBalance : Decimal) (start : Timestamp)
    (durability : Durability) (calls : List Call) (request : SubmitOrderRequest) (now : Timestamp) (mark : MarkPrice)
    (filters : Option SymbolFilters) (leverage : LeverageDecision) (paperEnabled : Bool) (marks : Marks)
    (detail : Option String) (checks : List String) (riskMax : Option Decimal) (result : PaperOrderResult)
    (h : ((PaperEngine.submitOrder config request now mark filters leverage paperEnabled marks detail checks
      riskMax).run (runCalls config (opening startingBalance start durability) calls)).1 = .ok result)
    (haccepted : result.accepted = true) :
    0 ≤ result.account.availableBalance ↔ Covered config (runCalls config (opening startingBalance start durability) calls)
      request now mark filters leverage paperEnabled :=
  submitOrder_covered_iff (marginPlaces_run startingBalance start durability calls) h haccepted

end Runs

def buying (margin : Decimal) : SubmitOrderRequest :=
  { symbol := "BTCUSDT", side := .buy, margin := some margin, clientOrderId := some "BTCUSDT" }

/-- A purchase at the price of 100, for one per cent of its worth. -/
def bought (margin : Decimal) : Except PaperError PaperOrderResult :=
  ((@PaperEngine.submitOrder exampleConfig referenceRuntime (buying margin) 0 exampleMark none exampleDecision true
    .empty none [] none).run (@runCalls referenceRuntime exampleConfig (opening 1000 0 .inMemory) [])).1

theorem accepted_funded_iff_half : ∃ result, bought 500 = .ok result ∧ result.account.availableBalance = 495 ∧
    (0 ≤ result.account.availableBalance ↔ @Covered referenceRuntime exampleConfig (opening 1000 0 .inMemory)
      (buying 500) 0 exampleMark none exampleDecision true) := by
  have hbought : (bought 500).toOption.any (fun result => result.accepted && result.account.availableBalance == 495) := by
    decide +kernel
  obtain ⟨result, hresult, hp⟩ := Raising.exists_ok hbought
  rw [Bool.and_eq_true, beq_iff_eq] at hp
  exact ⟨result, hresult, hp.2, @accepted_funded_iff referenceRuntime exampleConfig 1000 0 .inMemory [] (buying 500) 0
    exampleMark none exampleDecision true .empty none [] none result hresult hp.1⟩

/-- All of the balance goes into the margin, and the fee is owed. -/
theorem fee_overdraws : ¬ ∀ (config : PaperEngineConfig) (startingBalance : Decimal) (start : Timestamp)
    (durability : Durability) (calls : List Call) (request : SubmitOrderRequest) (now : Timestamp) (mark : MarkPrice)
    (filters : Option SymbolFilters) (leverage : LeverageDecision) (result : PaperOrderResult),
    ((@PaperEngine.submitOrder config referenceRuntime request now mark filters leverage true .empty none []
      none).run (@runCalls referenceRuntime config (opening startingBalance start durability) calls)).1 = .ok result →
      result.accepted = true → 0 ≤ result.account.availableBalance := by
  intro hclaim
  have hbought : (bought 1000).toOption.any (fun result => result.accepted && result.account.availableBalance == -10) := by
    decide +kernel
  obtain ⟨result, hresult, hp⟩ := Raising.exists_ok hbought
  rw [Bool.and_eq_true, beq_iff_eq] at hp
  have hnonneg := hclaim exampleConfig 1000 0 .inMemory [] (buying 1000) 0 exampleMark none exampleDecision result hresult
    hp.1
  rw [hp.2] at hnonneg
  norm_num at hnonneg

end Aetheris.PaperFunding
