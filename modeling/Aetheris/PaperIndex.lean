import Aetheris.Lib.IndexedLog
import Aetheris.PaperAtomicity

namespace Aetheris.PaperIndex

open Lib Mutation IndexedLog Money Clock Enums Leverage RiskEngine OrderIdentity PaperRecords PaperGate PaperPricing
  PaperEngine PaperLedger PaperRefinement PaperRuns PaperAccounts PaperOutcomes PaperViews PaperAtomicity

/-- The idempotency index is the log: the ids of the log are distinct, the index
maps them and no others to their orders, and the log keeps to its limit. -/
abbrev Indexed (config : PaperEngineConfig) (s : PaperState) : Prop :=
  Exact PaperOrder.clientOrderId config.maxOrderLog s.orderLog s.ordersByClientId

def loggedIds (s : PaperState) : List String := s.orderLog.map PaperOrder.clientOrderId

variable {config : PaperEngineConfig} {now : Timestamp} {r : Repository} {order : PaperOrder}

theorem recorded_filled {position : MutablePosition} :
    (filled config now order position r).state.orderLog = (recorded config order r.state).orderLog ∧
      (filled config now order position r).state.ordersByClientId =
        (recorded config order r.state).ordersByClientId := by
  simp only [filled, recorded, logOrder, bookEntry, charge, withSequence, and_self]

theorem recorded_left {position : MutablePosition} {exit : Exit} {reason : PaperExitReason} :
    (left config now order position exit reason r).state.orderLog = (recorded config order r.state).orderLog ∧
      (left config now order position exit reason r).state.ordersByClientId =
        (recorded config order r.state).ordersByClientId := by
  simp only [left, recorded, logOrder, bookExit, charge, withSequence, and_self]

/-- The log and its index as they were, or with one more order under an id the log had not. -/
def Shelved (config : PaperEngineConfig) (before after : PaperState) : Prop :=
  after.orderLog = before.orderLog ∧ after.ordersByClientId = before.ordersByClientId ∨
    ∃ order, order.clientOrderId ∉ loggedIds before ∧ after.orderLog = (recorded config order before).orderLog ∧
      after.ordersByClientId = (recorded config order before).ordersByClientId

theorem indexed_of_shelved {s t : PaperState} (h : Indexed config s) (hshelved : Shelved config s t) :
    Indexed config t := by
  rcases hshelved with ⟨hlog, hindex⟩ | ⟨order, hfresh, hlog, hindex⟩
  · rw [Indexed, hlog, hindex]
    exact h
  · rw [Indexed, hlog, hindex]
    exact h.push hfresh

theorem shelved_recorded {n : Nat} {t : Repository} (hfresh : order.clientOrderId ∉ loggedIds r.state)
    (ht : t.state.orderLog = (recorded config order (withSequence n (onDay config now r)).state).orderLog ∧
      t.state.ordersByClientId = (recorded config order (withSequence n (onDay config now r)).state).ordersByClientId) :
    Shelved config r.state t.state := by
  have hlog : (withSequence n (onDay config now r)).state.orderLog = r.state.orderLog := by simp
  have hindex : (withSequence n (onDay config now r)).state.ordersByClientId = r.state.ordersByClientId := by simp
  obtain ⟨hlog', hindex'⟩ := recorded_congr config order hlog hindex
  exact .inr ⟨order, hfresh, ht.1.trans hlog', ht.2.trans hindex'⟩

theorem shelved_withSequence (n : Nat) : Shelved config r.state (withSequence n (onDay config now r)).state := by
  refine .inl ⟨?_, ?_⟩
  · simp
  · simp

section Shelves

variable {α : Type} {marks : Marks}

def shelf (r : Repository) : List PaperOrder × Dict String PaperOrder := (r.state.orderLog, r.state.ordersByClientId)

/-- The computation leaves the log and its index alone. -/
abbrev Unlogged (x : PaperM α) : Prop := Silent shelf x

theorem undated_shelf : Undated shelf where
  session _ _ := rfl
  begun _ _ _ := rfl
  sequence _ _ := rfl
  stopped _ _ _ := rfl
  touched _ _ := rfl

theorem unlogged_updatePosition {symbol : String} {f : MutablePosition → MutablePosition} :
    Unlogged (updatePosition symbol f) := fun _ => rfl

theorem unlogged_close (position : MutablePosition) (mark : MarkPrice) (reason : PaperExitReason) :
    Unlogged (close config now position mark reason) := by
  refine silent_bind (silent_raising _) fun _ => silent_bind (silent_ensureSession undated_shelf) fun _ => ?_
  refine silent_bind (silent_nextSequence undated_shelf) fun _ => silent_bind silent_load fun _ => ?_
  exact silent_bind (silent_modify fun _ => rfl) fun _ => silent_pure

theorem unlogged_manage (symbol : String) : Unlogged (manage config now marks symbol) := by
  refine silent_bind silent_load fun state => ?_
  cases state.positions.get? symbol with
  | none => exact silent_pure
  | some position =>
      dsimp only
      cases usablePrice config symbol (marks.get? symbol) with
      | none => exact silent_bind unlogged_updatePosition fun _ => silent_pure
      | some found =>
          obtain ⟨mark, price⟩ := found
          refine silent_bind unlogged_updatePosition fun _ => ?_
          cases triggeredExit (observe now mark price position) price with
          | none => exact silent_bind unlogged_updatePosition fun _ => silent_pure
          | some reason => exact silent_bind (unlogged_close _ mark reason) fun _ => silent_pure

theorem unlogged_manageAll (symbols : List String) : Unlogged (manageAll config now marks symbols) := by
  induction symbols with
  | nil => exact silent_pure
  | cons symbol rest ih =>
      exact silent_bind (unlogged_manage symbol) fun _ => silent_bind ih fun _ => silent_pure

theorem unlogged_tick : Unlogged (tick config now marks) := by
  refine silent_bind (silent_ensureSession undated_shelf) fun _ => silent_bind silent_load fun _ => ?_
  refine silent_bind (unlogged_manageAll _) fun _ => silent_bind (silent_touch undated_shelf) fun _ => ?_
  exact silent_bind (silent_buildAccount undated_shelf) fun _ => silent_pure

end Shelves

section Runs

variable [Runtime] {op : Operation}

/-- A call takes no id from its counter that an order of the log has, a refusal
is not given one, and nothing is opened that cannot be reported. -/
def Apart (config : PaperEngineConfig) (r : Repository) : Operation → Prop
  | .submitOrder request now mark filters leverage paperEnabled _ _ _ _ =>
      (request.clientOrderId.getD "" = "" → submittedId request r.state.sequence ∉ loggedIds r.state) ∧
        ∀ entry, repeated r request = none →
          decisionOn config r request now mark filters leverage paperEnabled = .ok entry → Bookable config entry
  | .refuse request _ _ _ _ _ => submittedId request r.state.sequence ∉ loggedIds r.state
  | .closePosition _ _ _ _ _ => s!"paper-close-{r.state.sequence + 1}" ∉ loggedIds r.state
  | _ => True

theorem apart_admitted (h : Apart config r op) : op.Admitted (fun _ t => Reports t) config r := by
  cases op with
  | submitOrder request now mark filters leverage paperEnabled marks detail checks riskMax =>
      intro entry hentry orderId positionId
      obtain ⟨hnew, hdecision⟩ := considerOrder_of_entryOf hentry
      rw [onDay_ordersByClientId, onDay_sequence] at hnew
      exact (h.2 entry hnew hdecision).reports ..
  | _ => trivial

omit [Runtime] in
theorem shelved_of_unlogged {α : Type} {x : PaperM α} (hx : Unlogged x) : Shelved config r.state (x.run r).2.state := by
  have hshelf := hx r
  rw [shelf, shelf, Prod.mk.injEq] at hshelf
  exact .inl hshelf

theorem shelved_after (hreport : Reportable r.state) (h : Indexed config r.state) (hapart : Apart config r op) :
    Shelved config r.state (after config r op).state := by
  cases op with
  | submitOrder request now mark filters leverage paperEnabled marks detail checks riskMax =>
      have hsubmitted := submitOrder_submitted config now marks mark filters leverage paperEnabled detail checks riskMax
        hreport hapart.2
      have hfresh : repeated r request = none → submittedId request r.state.sequence ∉ loggedIds r.state :=
        h.get?_eq_none.mp
      change Shelved config r.state ((PaperEngine.submitOrder config request now mark filters leverage paperEnabled marks
        detail checks riskMax).run r).2.state
      cases hsubmitted with
      | replayed existing result _ hrun _ _ =>
          rw [hrun]
          exact shelved_withSequence _
      | raised e _ _ hrun =>
          rw [hrun]
          exact shelved_withSequence _
      | refused result hnew hid _ hrun _ =>
          rw [hrun]
          exact shelved_recorded (hid ▸ hfresh hnew) recorded_noted
      | opened result entry orderId positionId hnew _ hid _ hrun _ _ _ =>
          rw [hrun]
          exact shelved_recorded (hid ▸ hfresh hnew) recorded_filled
  | refuse request now code detail marks from_ =>
      obtain ⟨result, hrun, _, hid, _⟩ := refuse_run config now marks hreport request
        code detail from_
      rw [onDay_sequence] at hid
      change Shelved config r.state ((PaperEngine.refuse config request now code detail marks from_).run r).2.state
      rw [hrun]
      exact shelved_recorded (hid ▸ hapart) recorded_noted
  | closePosition symbol now mark reason marks =>
      obtain ⟨result, hid, hrun⟩ := closePosition_run config now marks hreport symbol
        mark reason
      rw [onDay_sequence] at hid
      have hfresh : result.order.clientOrderId ∉ loggedIds r.state := hid ▸ hapart
      change Shelved config r.state ((PaperEngine.closePosition config symbol now mark reason marks).run r).2.state
      rcases hrun with ⟨hrun, _⟩ | ⟨position, exit, _, hrun, _⟩
      · rw [hrun]
        exact shelved_recorded hfresh recorded_noted
      · rw [hrun]
        exact shelved_recorded hfresh recorded_left
  | replay id now marks => exact shelved_of_unlogged (silent_replay undated_shelf id)
  | tick now marks => exact shelved_of_unlogged unlogged_tick
  | setEmergencyStop engaged reason now => exact shelved_of_unlogged (silent_setEmergencyStop undated_shelf engaged reason)
  | snapshot now marks => exact shelved_of_unlogged (silent_snapshot undated_shelf)

theorem indexed_run {startingBalance : Decimal} {durability : Durability} {ops : List Operation}
    (h : Along (after config) (Apart config) (opening startingBalance now durability) ops) :
    Reportable (run config (opening startingBalance now durability) ops).state ∧
      Indexed config (run config (opening startingBalance now durability) ops).state := by
  have hall : let r := run config (opening startingBalance now durability) ops
      Keyed (ledger r) ∧ Reportable r.state ∧ Indexed config r.state := by
    refine foldl_invariant (I := fun r => Keyed (ledger r) ∧ Reportable r.state ∧ Indexed config r.state) ?_ h
      ⟨keyed_opening, fun _ hp => (nomatch hp), exact_nil⟩
    rintro r op ⟨hkeyed, hreport, hindexed⟩ hop
    exact ⟨keyed_after hkeyed, reportable_after hkeyed hreport (apart_admitted hop),
      indexed_of_shelved hindexed (shelved_after hreport hindexed hop)⟩
  exact hall.2

variable (now) in
/-- Under the id of an order in the log comes back what was recorded under it, and
only the day may begin. -/
theorem resubmitted (hreport : Reportable r.state) (h : Indexed config r.state) {existing : PaperOrder}
    (hlogged : existing ∈ r.state.orderLog) (hid : existing.clientOrderId ≠ "") {request : SubmitOrderRequest}
    (hrequest : request.clientOrderId = some existing.clientOrderId) (mark : MarkPrice)
    (filters : Option SymbolFilters) (leverage : LeverageDecision) (paperEnabled : Bool) (marks : Marks)
    (detail : Option String) (checks : List String) (riskMax : Option Decimal) :
    ∃ result, (PaperEngine.submitOrder config request now mark filters leverage paperEnabled marks detail checks
        riskMax).run r = (.ok result, onDay config now r) ∧ result.accepted = existing.isFilled ∧
      result.order = { existing with idempotentReplay := true } := by
  have hknown : repeated r request = some existing := by
    have hsubmitted : submittedId request r.state.sequence = existing.clientOrderId := by
      rw [submittedId, hrequest]
      exact if_neg hid
    rw [repeated, hsubmitted]
    exact h.get?_eq_some.mpr ⟨hlogged, rfl⟩
  have hidentified : identified config now request r = onDay config now r := by
    have hissued : issued request (onDay config now r).state.sequence = (onDay config now r).state.sequence := by
      rw [issued, hrequest]
      exact if_neg hid
    rw [identified, hissued]
    rfl
  obtain ⟨result, hrun, haccepted, horder⟩ := submitOrder_replayed config now marks mark filters leverage paperEnabled
    detail checks riskMax hreport hknown
  exact ⟨result, hidentified ▸ hrun, haccepted, horder⟩

/-- A submission that goes under a number of its own is no replay. -/
theorem first_of_unnamed (hreport : Reportable r.state) (h : Indexed config r.state) {request : SubmitOrderRequest}
    {mark : MarkPrice} {filters : Option SymbolFilters} {leverage : LeverageDecision} {paperEnabled : Bool}
    {marks : Marks} {detail : Option String} {checks : List String} {riskMax : Option Decimal}
    (hapart : Apart config r
      (.submitOrder request now mark filters leverage paperEnabled marks detail checks riskMax))
    (hunnamed : request.clientOrderId.getD "" = "") {result : PaperOrderResult}
    (hresult : ((PaperEngine.submitOrder config request now mark filters leverage paperEnabled marks detail checks
      riskMax).run r).1 = .ok result) : result.order.idempotentReplay = false := by
  have hsubmitted := submitOrder_submitted config now marks mark filters leverage paperEnabled detail checks riskMax
    hreport hapart.2
  cases hsubmitted with
  | replayed existing _ hknown _ _ _ =>
      obtain ⟨hlogged, hid⟩ := h.get?_eq_some.mp hknown
      exact absurd (hid ▸ List.mem_map_of_mem hlogged) (hapart.1 hunnamed)
  | raised e _ _ hrun =>
      rw [hrun] at hresult
      cases hresult
  | refused _ _ _ hfirst hrun _ =>
      rw [hrun] at hresult
      obtain rfl := Except.ok.inj hresult
      exact hfirst
  | opened _ _ _ _ _ _ _ hfirst hrun _ _ _ =>
      rw [hrun] at hresult
      obtain rfl := Except.ok.inj hresult
      exact hfirst

end Runs

/-- An order under the id that the counter comes to next but two. -/
def ahead : Operation :=
  .submitOrder { symbol := "BTCUSDT", side := .buy, margin := some 10, clientOrderId := some "paper-4" } 0 exampleMark
    none exampleDecision true .empty none [] none

def unnamed : PaperM PaperOrderResult :=
  @PaperEngine.submitOrder exampleConfig referenceRuntime { symbol := "ETHUSDT", side := .buy, margin := some 10 } 0
    exampleMark none exampleDecision true .empty none [] none

theorem unnamed_replays :
    (unnamed.run (@runCalls referenceRuntime exampleConfig (opening 1000 0 .inMemory) [.keep ahead])).1.toOption.map
      (fun result => (result.order.symbol, result.order.idempotentReplay)) = some ("BTCUSDT", true) := by
  decide +kernel

end Aetheris.PaperIndex
