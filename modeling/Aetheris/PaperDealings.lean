import Aetheris.PaperAtomicity
import Aetheris.PaperBrake

namespace Aetheris.PaperDealings

open Lib Mutation Money Clock Enums Leverage RiskEngine OrderIdentity PaperRecords PaperGate PaperPricing PaperEngine
  PaperLedger PaperConservation PaperRefinement PaperRuns PaperBrake PaperOutcomes PaperViews

/-- What was opened on an account, and what was closed. -/
def dealings (r : Repository) : List EntryTerms × List PaperTrade := (openings r.journal, tradesOf r.journal)

variable {config : PaperEngineConfig} {now : Timestamp} {marks : Marks} {r : Repository} {α : Type}

section Silence

theorem dealings_of_journal {r t : Repository} (h : t.journal = r.journal) : dealings t = dealings r := by
  rw [dealings, dealings, h]

theorem openings_append (journal more : List Event) : openings (journal ++ more) = openings journal ++ openings more :=
  List.filterMap_append

theorem dealings_beginSession : dealings (beginSession config now r) = dealings r := by
  change (openings (r.journal ++ [_]), tradesOf (r.journal ++ [_])) = _
  rw [openings_append, tradesOf_append]
  simp [openings, tradesOf, dealings]

/-- What only keeps the account's books of days and orders opens and closes nothing. -/
theorem blind_dealings : Blind dealings where
  session _ _ := rfl
  begun _ _ _ := dealings_beginSession
  sequence _ _ := rfl
  logged _ _ _ := rfl
  stopped _ _ _ := rfl
  touched _ _ := rfl

theorem dealings_onDay : dealings (onDay config now r) = dealings r := view_onDay blind_dealings.undated r

end Silence

section Entries

theorem dealings_filled {order : PaperOrder} {position : MutablePosition} :
    dealings (filled config now order position r) =
      ((dealings r).1 ++ [position.toEntryTerms], (dealings r).2) := by
  change (openings (r.journal ++ [_]), tradesOf (r.journal ++ [_])) = _
  rw [openings_append, tradesOf_append]
  simp [openings, tradesOf, dealings]

theorem dealings_noted {order : PaperOrder} : dealings (noted config now order r) = dealings r :=
  dealings_of_journal rfl

theorem dealings_withSequence (n : Nat) : dealings (withSequence n r) = dealings r := dealings_of_journal rfl

theorem dealings_identified {request : SubmitOrderRequest} : dealings (identified config now request r) = dealings r :=
  (dealings_withSequence _).trans dealings_onDay

variable [Runtime] {request : SubmitOrderRequest} {mark : MarkPrice} {filters : Option SymbolFilters}
  {leverage : LeverageDecision} {paperEnabled : Bool} {detail : Option String} {checks : List String}
  {riskMax : Option Decimal}

variable (marks detail checks riskMax) in
/-- An order that is not filled already is accepted exactly as it opens a position. -/
theorem submitOrder_deals (h : Reportable r.state)
    (hbookable : ∀ entry, repeated r request = none →
      decisionOn config r request now mark filters leverage paperEnabled = .ok entry → Bookable config entry)
    (hnew : ∀ existing ∈ repeated r request, existing.isFilled = false)
    {x : Except PaperError PaperOrderResult} {t : Repository}
    (hrun : (PaperEngine.submitOrder config request now mark filters leverage paperEnabled marks detail checks
      riskMax).run r = (x, t)) :
    (∃ result terms, x = .ok result ∧ result.accepted = true ∧ terms.symbol = Runtime.upper request.symbol ∧
      dealings t = ((dealings r).1 ++ [terms], (dealings r).2)) ∨
    (∀ result, x = .ok result → result.accepted = false) ∧ dealings t = dealings r := by
  have hsubmitted := submitOrder_submitted config now marks mark filters leverage paperEnabled detail checks riskMax h
    hbookable
  rw [hrun] at hsubmitted
  cases hsubmitted with
  | replayed existing result hknown hrun haccepted horder =>
      obtain ⟨rfl, rfl⟩ := Prod.mk.inj hrun
      refine .inr ⟨?_, dealings_identified⟩
      rintro _ ⟨⟩
      rw [haccepted, hnew existing hknown]
  | raised e hnew hdecision hrun =>
      obtain ⟨rfl, rfl⟩ := Prod.mk.inj hrun
      refine .inr ⟨?_, dealings_identified⟩
      rintro _ ⟨⟩
  | refused result hnew hid hfirst hrun haccepted =>
      obtain ⟨rfl, rfl⟩ := Prod.mk.inj hrun
      refine .inr ⟨?_, dealings_noted.trans dealings_identified⟩
      rintro _ ⟨⟩
      exact haccepted
  | opened result entry orderId positionId hnew hdecision hid hfirst hrun haccepted hfree hbookable =>
      obtain ⟨rfl, rfl⟩ := Prod.mk.inj hrun
      refine .inl ⟨result, (openedPosition config request (Runtime.upper request.symbol) entry now orderId
        positionId).toEntryTerms, rfl, haccepted, rfl, ?_⟩
      rw [dealings_filled, dealings_identified]

end Entries

section Exits

theorem tradesOf_lockEvents (before after : Option MutableSession) : tradesOf (lockEvents before after) = [] := by
  unfold lockEvents
  split
  · split <;> rfl
  · rfl

theorem openings_lockEvents (before after : Option MutableSession) : openings (lockEvents before after) = [] := by
  unfold lockEvents
  split
  · split <;> rfl
  · rfl

theorem dealings_bookExit {position : MutablePosition} {exit : Exit} {reason : PaperExitReason} {tradeId : String} :
    dealings (bookExit config now position exit reason tradeId r) = ((dealings r).1, (dealings r).2 ++
      [tradeOf now position exit reason tradeId (charge (exit.gross - exit.fee) exit.fee r.state).balance]) := by
  change (openings (r.journal ++ _ :: lockEvents _ _), tradesOf (r.journal ++ _ :: lockEvents _ _)) = _
  rw [openings_append, tradesOf_append]
  change (_ ++ openings (lockEvents _ _), _ ++ _ :: tradesOf (lockEvents _ _)) = _
  rw [openings_lockEvents, tradesOf_lockEvents, List.append_nil]
  rfl

variable (config now r) in
theorem dealings_left (order : PaperOrder) (position : MutablePosition) (exit : Exit) (reason : PaperExitReason) :
    ∃ trade, dealings (left config now order position exit reason r) = ((dealings r).1, (dealings r).2 ++ [trade]) := by
  have hbooked : dealings (left config now order position exit reason r) = dealings (bookExit config now position exit
      reason s!"paper-trade-{r.state.sequence + 1}" (withSequence (r.state.sequence + 1) r)) := dealings_of_journal rfl
  exact ⟨_, hbooked.trans (dealings_bookExit.trans (by rw [dealings_withSequence]))⟩

/-- The day's account, and it can be reported. -/
structure Presentable (now : Timestamp) (l : Ledger) : Prop where
  opened : ∃ s, l.session = some s ∧ s.date = date now
  reports : ∀ t ∈ l.positions.values, Reports t

theorem presentable_iff : Presentable now (ledger r) ↔ Opened now r ∧ Reportable r.state := by
  constructor
  · intro h
    obtain ⟨s, hs, hdate⟩ := h.opened
    obtain ⟨session, hsession, rfl⟩ := Option.map_eq_some_iff.mp hs
    exact ⟨⟨session, hsession, hdate⟩, fun p hp => h.reports _ (mem_terms.mpr ⟨p, hp, rfl⟩)⟩
  · rintro ⟨⟨session, hsession, hdate⟩, hreports⟩
    refine ⟨⟨line session, Option.map_eq_some_iff.mpr ⟨session, hsession, rfl⟩, hdate⟩, fun t ht => ?_⟩
    obtain ⟨p, hp, rfl⟩ := mem_terms.mp ht
    exact hreports p hp

/-- The computation returns something of a kind, after it has closed what the result names. -/
def Closes (now : Timestamp) (x : PaperM α) (closed : α → List PaperTrade) (r : Repository) : Prop :=
  ∃ a t, x.run r = (.ok a, t) ∧ Presentable now (ledger t) ∧
    dealings t = ((dealings r).1, (dealings r).2 ++ closed a)

theorem closes_quiet {x : PaperM α} {closed : α → List PaperTrade} {a : α} {t : Repository}
    (h : Presentable now (ledger r)) (hrun : x.run r = (.ok a, t)) (hx : Quiet x) (ha : closed a = []) :
    Closes now x closed r := by
  have hledger : ledger t = ledger r := by
    have hquiet := hx r
    rwa [hrun] at hquiet
  refine ⟨a, t, hrun, hledger ▸ h, ?_⟩
  rw [dealings_of_journal (congrArg Ledger.journal hledger), ha, List.append_nil]

theorem closes_after {β : Type} {x : PaperM β} {f : β → PaperM α} {closed : α → List PaperTrade} {b : β}
    {t : Repository} (hrun : x.run r = (.ok b, t)) (hx : Quiet x) (h : Closes now (f b) closed t) :
    Closes now (x >>= f) closed r := by
  have hledger : ledger t = ledger r := by
    have hquiet := hx r
    rwa [hrun] at hquiet
  obtain ⟨a, u, hf, hu, hdealings⟩ := h
  refine ⟨a, u, (run_bind_ok hrun).trans hf, hu, ?_⟩
  rw [hdealings, dealings_of_journal (congrArg Ledger.journal hledger)]

theorem presentable_bookExit {position : MutablePosition} {exit : Exit} {reason : PaperExitReason} {tradeId : String}
    (h : Presentable now (ledger r)) :
    Presentable now (ledger (bookExit config now position exit reason tradeId r)) := by
  obtain ⟨⟨s, hs, hday⟩, hreport⟩ := presentable_iff.mp h
  refine presentable_iff.mpr ⟨?_, fun p hp => hreport p (Dict.mem_values_erase (d := r.state.positions) hp)⟩
  let charged := chargeSession (exit.gross - exit.fee) exit.fee s
  refine ⟨applyDailyLock now { charged with tradesClosed := s.tradesClosed + 1 }, ?_, (applyDailyLock_date _).trans hday⟩
  change (r.state.session.map _).map _ = _
  rw [hs]
  rfl

variable (config) in
theorem close_closes (h : Presentable now (ledger r)) (position : MutablePosition) {mark : MarkPrice}
    (hmark : mark.isUsable = true) (reason : PaperExitReason) :
    Closes now (close config now position mark reason) (fun trade => [trade]) r := by
  obtain ⟨exit, hrun⟩ := close_booked config now r position hmark reason
  rw [onDay_of_opened (presentable_iff.mp h).1] at hrun
  exact ⟨_, _, hrun, presentable_bookExit h, dealings_bookExit⟩

variable (config marks) in
theorem manage_closes (h : Presentable now (ledger r)) (symbol : String) :
    Closes now (manage config now marks symbol) Option.toList r := by
  rw [Closes, manage, run_bind_ok load_run]
  cases r.state.positions.get? symbol with
  | none => exact closes_quiet h rfl silent_pure rfl
  | some position =>
      dsimp only
      cases husable : usablePrice config symbol (marks.get? symbol) with
      | none =>
          have hquiet : Quiet (updatePosition symbol (unmark (marks.get? symbol))) := quiet_updatePosition fun _ => rfl
          exact closes_quiet h rfl (silent_bind hquiet fun _ => silent_pure) rfl
      | some found =>
          obtain ⟨mark, price⟩ := found
          have hobserved : Quiet (updatePosition symbol (observe now mark price)) :=
            quiet_updatePosition (observe_terms mark price)
          dsimp only
          refine closes_after rfl hobserved ?_
          have hledger := hobserved r
          have h' := hledger ▸ h
          cases triggeredExit (observe now mark price position) price with
          | none =>
              have htrailed : Quiet (updatePosition symbol (advanceTrail price)) :=
                quiet_updatePosition (advanceTrail_terms price)
              exact closes_quiet h' rfl (silent_bind htrailed fun _ => silent_pure) rfl
          | some reason =>
              obtain ⟨trade, t, hrun, ht, hdealings⟩ := close_closes config h' (observe now mark price position)
                (usablePrice_usable husable).2.1 reason
              exact ⟨some trade, t, run_bind_ok hrun, ht, hdealings⟩

variable (config marks) in
theorem manageAll_closes (h : Presentable now (ledger r)) (symbols : List String) :
    Closes now (manageAll config now marks symbols) id r := by
  induction symbols generalizing r with
  | nil => exact closes_quiet h rfl silent_pure rfl
  | cons symbol rest ih =>
      obtain ⟨trade, t, hrun, ht, hdealings⟩ := manage_closes config marks h symbol
      obtain ⟨trades, u, hrest, hu, hmore⟩ := ih ht
      refine ⟨trade.toList ++ trades, u, ?_, hu, ?_⟩
      · rw [manageAll, run_bind_ok hrun, run_bind_ok hrest]
        rfl
      · rw [hmore, hdealings, List.append_assoc]
        rfl

variable (config now) in
theorem presentable_onDay (h : Reportable r.state) : Presentable now (ledger (onDay config now r)) := by
  obtain ⟨_, _, hopened⟩ := ensureSession_ok config now r
  exact presentable_iff.mpr ⟨hopened, reportable_onDay config now h⟩

variable (config now marks) in
/-- A tick returns the trades that it closes. -/
theorem tick_closes (h : Reportable r.state) : Closes now (PaperEngine.tick config now marks) (fun a => a.2) r := by
  obtain ⟨session, hsession, _⟩ := ensureSession_ok config now r
  obtain ⟨closed, t, hclosed, ht, hdealings⟩ := manageAll_closes config marks
    (presentable_onDay config now h) (onDay config now r).state.positions.keys
  obtain ⟨hopened, hreport⟩ := presentable_iff.mp ht
  rw [Closes, PaperEngine.tick, run_bind_ok hsession, run_bind_ok load_run, run_bind_ok hclosed, run_bind_ok touch_run]
  obtain ⟨account, haccount⟩ : ∃ account, (buildAccount config now marks >>= fun account => pure (account, closed)).run
      { t with state := { t.state with updatedAt := now } } =
        (.ok (account, closed), { t with state := { t.state with updatedAt := now } }) := reporting_run hopened hreport
  refine ⟨_, _, haccount, presentable_iff.mpr ⟨hopened, hreport⟩, ?_⟩
  rw [dealings_onDay] at hdealings
  exact hdealings

section Positions

variable [Runtime] {symbol : String} {mark : MarkPrice} {reason : PaperExitReason} {result : PaperOrderResult}

theorem closePosition_trade
    (h : ((PaperEngine.closePosition config symbol now mark reason marks).run r).1 = .ok result)
    (haccepted : result.accepted = true) : result.trade.isSome = true := by
  rw [PaperEngine.closePosition] at h
  obtain ⟨_, t, _, h⟩ := of_run_bind h
  rw [run_bind_ok load_run] at h
  obtain ⟨_, _, _, h⟩ := of_run_bind h
  cases hheld : t.state.positions.get? (Runtime.upper symbol) with
  | none =>
      rw [hheld] at h
      rw [reject_unaccepted h] at haccepted
      cases haccepted
  | some position =>
      rw [hheld] at h
      dsimp only at h
      split at h
      · rw [reject_unaccepted h] at haccepted
        cases haccepted
      · obtain ⟨trade, _, _, h⟩ := of_run_bind h
        obtain ⟨_, _, _, h⟩ := of_run_bind h
        obtain ⟨_, _, _, h⟩ := of_run_bind h
        obtain ⟨_, _, _, h⟩ := of_run_bind h
        obtain ⟨_, _, _, h⟩ := of_run_bind h
        obtain ⟨_, _, _, h⟩ := of_run_bind h
        cases h
        rfl

variable (config now symbol mark reason marks) in
/-- A position is closed exactly if the call is accepted, and then with a trade. -/
theorem closePosition_deals (h : Reportable r.state) :
    ∃ result t, (PaperEngine.closePosition config symbol now mark reason marks).run r = (.ok result, t) ∧
      ((result.accepted = false ∧ dealings t = dealings r) ∨ ∃ trade, result.accepted = true ∧
        result.trade.isSome = true ∧ dealings t = ((dealings r).1, (dealings r).2 ++ [trade])) := by
  have hnumbered : dealings (numbered config now r) = dealings r := (dealings_withSequence _).trans dealings_onDay
  obtain ⟨result, _, ⟨hrun, haccepted⟩ | ⟨position, exit, _, hrun, haccepted⟩⟩ :=
    closePosition_run config now marks h symbol mark reason
  · exact ⟨result, _, hrun, .inl ⟨haccepted, dealings_noted.trans hnumbered⟩⟩
  · have htrade : result.trade.isSome = true :=
      closePosition_trade (congrArg Prod.fst hrun) haccepted
    obtain ⟨trade, hleft⟩ := dealings_left config now (numbered config now r) result.order position exit reason
    rw [hnumbered] at hleft
    exact ⟨result, _, hrun, .inr ⟨trade, haccepted, htrade, hleft⟩⟩

end Positions

end Exits
end Aetheris.PaperDealings
