import Aetheris.PaperViews

namespace Aetheris.PaperAtomicity

open Lib Mutation Money Clock Enums Leverage RiskEngine OrderIdentity PaperRecords PaperGate PaperPricing PaperEngine
  PaperLedger PaperRefinement PaperRuns PaperAccounts PaperOutcomes PaperViews

/-- An account apart from what a refusal writes. -/
def besides (s : PaperState) : PaperState :=
  { s with orderLog := [], ordersByClientId := .empty, sequence := 0, session := none, updatedAt := 0 }

def uncounted (s : MutableSession) : MutableSession := { s with ordersRejected := 0 }

/-- All that a refusal costs is a line in the log and in its index, numbers, and
one more refusal of the day. -/
structure Costless (config : PaperEngineConfig) (now : Timestamp) (before after : Repository) : Prop where
  rest : besides after.state = besides before.state
  session : after.state.session.map uncounted = (onDay config now before).state.session.map uncounted
  counted : ∀ s ∈ after.state.session, ∀ s' ∈ (onDay config now before).state.session,
    s'.ordersRejected ≤ s.ordersRejected
  sequence : before.state.sequence ≤ after.state.sequence
  log : after.state.orderLog = before.state.orderLog ∧ after.state.ordersByClientId = before.state.ordersByClientId ∨
    ∃ order, after.state.orderLog = (recorded config order before.state).orderLog ∧
      after.state.ordersByClientId = (recorded config order before.state).ordersByClientId

/-- A refusal costs nothing, a failure changes nothing, and the account can
still be looked at. -/
structure Atomic (config : PaperEngineConfig) (now : Timestamp) (x : PaperM PaperOrderResult) (r : Repository) :
    Prop where
  refused : ∀ result, (x.run r).1 = .ok result → result.accepted = false → Costless config now r (x.run r).2
  raised : ∀ e, (x.run r).1 = .error e → (x.run r).2 = r
  looks : ∀ now marks, ∃ account, ((snapshot config now marks).run (x.run r).2).1 = .ok account

section Calls

variable [Runtime]

/-- The calls that answer an order. -/
def ordering (config : PaperEngineConfig) : Operation → Option (PaperM PaperOrderResult)
  | .submitOrder request now mark filters leverage paperEnabled marks detail checks riskMax =>
      some (PaperEngine.submitOrder config request now mark filters leverage paperEnabled marks detail checks riskMax)
  | .refuse request now code detail marks from_ => some (PaperEngine.refuse config request now code detail marks from_)
  | .closePosition symbol now mark reason marks => some (PaperEngine.closePosition config symbol now mark reason marks)
  | .replay _ _ _ | .tick _ _ | .setEmergencyStop _ _ _ | .snapshot _ _ => none

/-- An order that is opened is worth half a unit of margin or more, at a leverage
of one or more and for no negative fee; one that cannot be sized has moved
nothing until then. -/
def Sound (config : PaperEngineConfig) (r : Repository) : Operation → Prop
  | .submitOrder request now mark filters leverage paperEnabled _ _ _ _ =>
      repeated r request = none →
        (∀ entry, decisionOn config r request now mark filters leverage paperEnabled = .ok entry →
          1 / (2 * usdtUnits) ≤ entry.notional / entry.approvedLeverage ∧ 1 ≤ entry.approvedLeverage ∧
            0 ≤ entryFee config entry) ∧
        ∀ e, decisionOn config r request now mark filters leverage paperEnabled = .error (.raised e) →
          identified config now request r = r
  | _ => True

end Calls

variable {config : PaperEngineConfig} {now : Timestamp} {r : Repository}

theorem looks_of_reportable (h : Reportable r.state) (now : Timestamp) (marks : Marks) :
    ∃ account, ((snapshot config now marks).run r).1 = .ok account := by
  obtain ⟨session, hsession, hopened⟩ := ensureSession_ok config now r
  obtain ⟨account, haccount⟩ := buildAccount_run config marks hopened
    (reportable_onDay config now h)
  refine ⟨account, ?_⟩
  rw [snapshot, run_bind_ok hsession, haccount]

theorem besides_onDay : besides (onDay config now r).state = besides r.state := by
  rw [onDay_state]
  rfl

theorem besides_noted (order : PaperOrder) : besides (noted config now order r).state = besides r.state := by
  simp only [besides, noted, recorded, logOrder]

theorem session_noted (order : PaperOrder) :
    (noted config now order r).state.session =
      r.state.session.map fun s => { s with ordersRejected := s.ordersRejected + 1 } := by
  simp only [noted, recorded, logOrder]

theorem costless_identified (n : Nat) (hn : r.state.sequence ≤ n) :
    Costless config now r (withSequence n (onDay config now r)) where
  rest := besides_onDay
  session := rfl
  counted s hs s' hs' := by
    obtain rfl := Option.some.inj (hs.symm.trans hs')
    exact le_rfl
  sequence := hn
  log := by
    change (onDay config now r).state.orderLog = _ ∧ (onDay config now r).state.ordersByClientId = _ ∨ _
    rw [onDay_state]
    exact .inl ⟨rfl, rfl⟩

theorem costless_noted (order : PaperOrder) (n : Nat) (hn : r.state.sequence ≤ n) :
    Costless config now r (noted config now order (withSequence n (onDay config now r))) where
  rest := (besides_noted order).trans besides_onDay
  session := by
    rw [session_noted, Option.map_map]
    rfl
  counted s hs s' hs' := by
    rw [session_noted] at hs
    obtain ⟨s'', hs'', rfl⟩ := Option.mem_map.mp hs
    obtain rfl := Option.some.inj (hs'.symm.trans hs'')
    exact Nat.le_succ _
  sequence := Nat.le_succ_of_le hn
  log := by
    have hlog : (withSequence n (onDay config now r)).state.orderLog = r.state.orderLog := by simp
    have hindex : (withSequence n (onDay config now r)).state.ordersByClientId = r.state.ordersByClientId := by simp
    obtain ⟨hlog', hindex'⟩ := recorded_congr config order hlog hindex
    exact .inr ⟨order, recorded_noted.1.trans hlog', recorded_noted.2.trans hindex'⟩

theorem atomic_of_ok {x : PaperM PaperOrderResult} {result : PaperOrderResult} {t : Repository}
    (hrun : x.run r = (.ok result, t)) (hcost : result.accepted = false → Costless config now r t)
    (hreport : Reportable t.state) : Atomic config now x r := by
  refine ⟨fun result' hresult hrefused => ?_, fun e he => ?_, ?_⟩
  · rw [hrun] at hresult ⊢
    obtain rfl := Except.ok.inj hresult
    exact hcost hrefused
  · rw [hrun] at he
    cases he
  · rw [hrun]
    exact looks_of_reportable hreport

theorem atomic_of_error {x : PaperM PaperOrderResult} {e : PaperError} (hrun : x.run r = (.error e, r))
    (hreport : Reportable r.state) : Atomic config now x r := by
  refine ⟨fun result hresult => ?_, fun _ _ => ?_, ?_⟩
  · rw [hrun] at hresult
    cases hresult
  · rw [hrun]
  · rw [hrun]
    exact looks_of_reportable hreport

theorem le_issued (request : SubmitOrderRequest) (n : Nat) : n ≤ issued request n := by
  unfold issued
  split
  · split
    · exact Nat.le_succ n
    · exact le_rfl
  · exact Nat.le_succ n

theorem bookable_of_considered {state : PaperState} {request : SubmitOrderRequest} {symbol : String}
    {mark : MarkPrice} {filters : Option SymbolFilters} {leverage : LeverageDecision} {paperEnabled : Bool}
    {entry : Entry}
    (h : considerOrder config state request symbol mark filters leverage paperEnabled = .ok entry) :
    Bookable config entry ↔ 1 / (2 * usdtUnits) ≤ entry.notional / entry.approvedLeverage ∧
      1 ≤ entry.approvedLeverage ∧ 0 ≤ entryFee config entry := by
  have hconsidered := considerOrder_ok h
  have hmargin : 0 < entry.margin ↔ 1 / (2 * usdtUnits) ≤ entry.notional / entry.approvedLeverage := by
    rw [(considerOrder_sized h).margin, quantizeUsdt_pos_iff]
  constructor
  · intro hbookable
    exact ⟨hmargin.mp hbookable.margin, hbookable.leverage, hbookable.fee⟩
  · rintro ⟨hhalf, hleverage, hfee⟩
    exact ⟨hconsidered.admitted.quantity_pos, hconsidered.price_pos, hconsidered.admitted.notional_pos,
      hmargin.mpr hhalf, hleverage, hfee⟩

section Submissions

variable [Runtime] {marks : Marks} {request : SubmitOrderRequest} {mark : MarkPrice} {filters : Option SymbolFilters}
  {leverage : LeverageDecision} {paperEnabled : Bool} {detail : Option String} {checks : List String}
  {riskMax : Option Decimal}

theorem submitOrder_atomic (h : Reportable r.state)
    (hsound : Sound config r (.submitOrder request now mark filters leverage paperEnabled marks detail checks riskMax)) :
    Atomic config now
      (PaperEngine.submitOrder config request now mark filters leverage paperEnabled marks detail checks riskMax) r := by
  have hissued : r.state.sequence ≤ issued request (onDay config now r).state.sequence := by
    rw [onDay_sequence]
    exact le_issued request _
  have hreport : Reportable (identified config now request r).state := reportable_withSequence (reportable_onDay _ _ h)
  have hsubmitted := submitOrder_submitted config now marks mark filters leverage paperEnabled detail checks riskMax h
    fun entry hnew hentry => (bookable_of_considered hentry).mpr ((hsound hnew).1 entry hentry)
  cases hsubmitted with
  | replayed existing result _ hrun _ _ => exact atomic_of_ok hrun (fun _ => costless_identified _ hissued) hreport
  | raised e hnew hdecision hrun =>
      rw [(hsound hnew).2 e hdecision] at hrun
      exact atomic_of_error hrun h
  | refused result _ _ _ hrun _ =>
      exact atomic_of_ok hrun (fun _ => costless_noted _ _ hissued) (reportable_noted hreport)
  | opened result entry orderId positionId _ _ _ _ hrun haccepted hfree hbookable =>
      refine atomic_of_ok hrun (fun hrefused => ?_) (reportable_filled hreport ?_ (hbookable.reports ..))
      · rw [haccepted] at hrefused
        cases hrefused
      · change Runtime.upper request.symbol ∉ (onDay config now r).state.positions.keys
        rw [onDay_positions]
        exact hfree

end Submissions

section Failures

variable {marks : Marks}

theorem building_ok {ok : Bool} {record : String} {u : Unit} (h : ((building ok record).run r).1 = .ok u) :
    ok = true := by
  cases ok with
  | true => rfl
  | false =>
      rw [building_fails rfl] at h
      cases h

theorem reported_of_run {p : MutablePosition} {model : PaperPosition}
    (h : ((reportPosition config now marks p).run r).1 = .ok model) : Reports p.toEntryTerms := by
  rw [reportPosition] at h
  obtain ⟨_, _, hbuilding, _⟩ := of_run_bind h
  rw [← positionModel_terms config now marks, ← validates_iff]
  exact building_ok (congrArg Prod.fst hbuilding)

variable {α : Type} {x : PaperM α}

theorem blind_standing : Blind fun r : Repository => r.state.positions.keys where
  session _ _ := rfl
  begun _ _ _ := rfl
  sequence _ _ := rfl
  logged _ _ _ := rfl
  stopped _ _ _ := rfl
  touched _ _ := rfl

section Entries

variable {request : SubmitOrderRequest} {symbol id : String} {entry : Entry} {leverage : LeverageDecision}
  {age : Option Decimal} {detail : Option String} {from_ : Provenance}

/-- Where an entry is booked and the call returns, the position could be reported. -/
theorem openPosition_returned {result : PaperOrderResult}
    (h : ((openPosition config request symbol id entry now leverage age marks detail from_).run r).1 = .ok result) :
    ∃ orderId positionId, Reports (openedPosition config request symbol entry now orderId positionId).toEntryTerms := by
  rw [openPosition] at h
  obtain ⟨_, _, _, h⟩ := of_run_bind h
  obtain ⟨orderNumber, _, _, h⟩ := of_run_bind h
  obtain ⟨positionNumber, _, _, h⟩ := of_run_bind h
  obtain ⟨_, _, _, h⟩ := of_run_bind h
  obtain ⟨_, _, _, h⟩ := of_run_bind h
  obtain ⟨_, _, _, h⟩ := of_run_bind h
  obtain ⟨_, _, _, h⟩ := of_run_bind h
  obtain ⟨_, _, _, h⟩ := of_run_bind h
  obtain ⟨_, _, _, h⟩ := of_run_bind h
  obtain ⟨_, _, hreported, _⟩ := of_run_bind h
  exact ⟨_, _, reported_of_run (congrArg Prod.fst hreported)⟩

variable (config now r marks request symbol id entry leverage age detail from_) in
/-- Whether it returns or raises, an entry leaves its position behind. -/
theorem openPosition_stands :
    symbol ∈ ((openPosition config request symbol id entry now leverage age marks detail from_).run
      r).2.state.positions.keys := by
  obtain ⟨orderId, positionId, n, hkeys⟩ := openPosition_view config now marks blind_standing request symbol id entry
    leverage age detail from_ r
  rw [hkeys]
  exact Dict.mem_keys_set _ _ _

end Entries

variable [Runtime]

theorem sound_of_atomic {request : SubmitOrderRequest} {mark : MarkPrice} {filters : Option SymbolFilters}
    {leverage : LeverageDecision} {paperEnabled : Bool} {detail : Option String} {checks : List String}
    {riskMax : Option Decimal} (h : Atomic config now
      (PaperEngine.submitOrder config request now mark filters leverage paperEnabled marks detail checks riskMax) r) :
    Sound config r (.submitOrder request now mark filters leverage paperEnabled marks detail checks riskMax) := by
  intro hnew
  obtain ⟨_, _, hopened⟩ := ensureSession_ok config now r
  have hdecided := submitOrder_decided config now marks _ mark filters leverage paperEnabled detail checks riskMax hnew
  refine ⟨fun entry hentry => ?_, fun e he => ?_⟩
  · rw [hentry] at hdecided
    rw [← bookable_of_considered hentry]
    have hconsidered := considerOrder_ok hentry
    cases hresult : ((PaperEngine.submitOrder config request now mark filters leverage paperEnabled marks detail checks
        riskMax).run r).1 with
    | ok result =>
        rw [hdecided] at hresult
        obtain ⟨_, _, hreports⟩ := openPosition_returned hresult
        exact ⟨hreports.quantity, hreports.entryPrice, hreports.notional, hreports.margin, hreports.leverage,
          hreports.entryFee⟩
    | error e =>
        -- the position stands, so the account is not what it was
        have hsame := h.raised e hresult
        rw [hdecided] at hsame
        have hstands := openPosition_stands config now (identified config now request r)
          (marks.setDefault (Runtime.upper request.symbol) mark) request (Runtime.upper request.symbol)
          (submittedId request (onDay config now r).state.sequence) entry leverage mark.ageSeconds detail
          ⟨some leverage, checks, riskMax⟩
        have hfree : Runtime.upper request.symbol ∉ r.state.positions.keys := by
          rw [← onDay_positions config now _]
          exact hconsidered.admitted.free
        exact absurd (hsame ▸ hstands) hfree
  · rw [he] at hdecided
    have hsame := h.raised e (by rw [hdecided]; rfl)
    rw [hdecided] at hsame
    exact hsame

end Failures

section Runs

variable [Runtime] {op : Operation}

theorem reports_admitted (h : Sound config r op) : op.Admitted (fun _ t => Reports t) config r := by
  cases op with
  | submitOrder request now mark filters leverage paperEnabled marks detail checks riskMax =>
      intro entry hentry orderId positionId
      obtain ⟨hnew, hdecision⟩ := considerOrder_of_entryOf hentry
      rw [onDay_ordersByClientId, onDay_sequence] at hnew
      have hbookable := (bookable_of_considered hdecision).mpr ((h hnew).1 entry hdecision)
      exact hbookable.reports ..
  | _ => trivial

theorem reportable_after (hkeyed : Keyed (ledger r)) (h : Reportable r.state)
    (hop : op.Admitted (fun _ t => Reports t) config r) : Reportable (after config r op).state := by
  have hterms : ∀ t ∈ (ledger r).positions.values, Reports t := by
    intro t ht
    obtain ⟨p, hp, rfl⟩ := mem_terms.mp ht
    exact h p hp
  have hreports := reflTransGen_invariant (I := fun l => ∀ t ∈ l.positions.values, Reports t)
    (fun _ _ hm => terms_move hm) (after_moves hkeyed hop) hterms
  exact fun p hp => hreports _ (mem_terms.mpr ⟨p, hp, rfl⟩)

theorem reportable_run {startingBalance : Decimal} {durability : Durability} {ops : List Operation}
    (h : Along (after config) (Sound config) (opening startingBalance now durability) ops) :
    Reportable (run config (opening startingBalance now durability) ops).state := by
  have hboth : Keyed (ledger (run config (opening startingBalance now durability) ops)) ∧
      Reportable (run config (opening startingBalance now durability) ops).state := by
    refine foldl_invariant (I := fun r => Keyed (ledger r) ∧ Reportable r.state) ?_ h
      ⟨keyed_opening, fun _ hp => nomatch hp⟩
    rintro r op ⟨hkeyed, hreport⟩ hop
    exact ⟨keyed_after hkeyed, reportable_after hkeyed hreport (reports_admitted hop)⟩
  exact hboth.2

/-- Where an account can be reported, a call is atomic exactly if it is sound. -/
theorem atomic_iff (h : Reportable r.state) {x : PaperM PaperOrderResult} (hx : ordering config op = some x) :
    Atomic config op.now x r ↔ Sound config r op := by
  cases op with
  | submitOrder request now mark filters leverage paperEnabled marks detail checks riskMax =>
      obtain rfl := Option.some.inj hx
      exact ⟨sound_of_atomic, submitOrder_atomic h⟩
  | refuse request now code detail marks from_ =>
      obtain rfl := Option.some.inj hx
      refine ⟨fun _ => trivial, fun _ => ?_⟩
      obtain ⟨result, hrun, _⟩ := refuse_run config now marks h request code detail from_
      refine atomic_of_ok hrun (fun _ => costless_noted _ _ ?_)
        (reportable_noted (reportable_withSequence (reportable_onDay _ _ h)))
      rw [onDay_sequence]
      exact le_issued request _
  | closePosition symbol now mark reason marks =>
      obtain rfl := Option.some.inj hx
      refine ⟨fun _ => trivial, fun _ => ?_⟩
      have hreport : Reportable (numbered config now r).state := reportable_withSequence (reportable_onDay _ _ h)
      obtain ⟨result, _, ⟨hrun, _⟩ | ⟨position, exit, _, hrun, haccepted⟩⟩ := closePosition_run config now marks h
        symbol mark reason
      · refine atomic_of_ok hrun (fun _ => costless_noted _ _ ?_) (reportable_noted hreport)
        rw [onDay_sequence]
        exact Nat.le_succ _
      · refine atomic_of_ok hrun (fun hrefused => ?_) (reportable_left hreport)
        rw [haccepted] at hrefused
        cases hrefused
  | replay id now marks => cases hx
  | tick now marks => cases hx
  | setEmergencyStop engaged reason now => cases hx
  | snapshot now marks => cases hx

end Runs

def exampleEntry : Entry where
  price := 100
  priceSource := "venue:best_ask"
  quantity := 1 / 10
  notional := 10
  margin := 10
  approvedLeverage := 1

theorem exampleEntry_decided :
    @decisionOn referenceRuntime exampleConfig (opening 1000 0 .inMemory)
      { symbol := "BTCUSDT", side := .buy, margin := some 10, clientOrderId := some "BTCUSDT" } 0 exampleMark none
      exampleDecision true = .ok exampleEntry := by decide +kernel

/-- So small an order that at three times its margin rounds to nothing. -/
def dust : Operation :=
  .submitOrder { symbol := "BTCUSDT", side := .buy, quantity := some nominalQuantity } 0
    { exampleMark with lastPrice := some 1, bidPrice := some 1, askPrice := some 1 } none
    { exampleDecision with approvedLeverage := some 3, detail := "3x" } true .empty none [] none

def dusted : PaperM PaperOrderResult := (@ordering referenceRuntime exampleConfig dust).getD (throw (.value ""))

theorem dust_raises : (dusted.run (opening 1000 0 .inMemory)).1.toBool = false := by decide +kernel

theorem dust_stays : (dusted.run (opening 1000 0 .inMemory)).2 ≠ opening 1000 0 .inMemory := by decide +kernel

end Aetheris.PaperAtomicity
