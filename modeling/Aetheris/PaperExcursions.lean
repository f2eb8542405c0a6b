import Aetheris.Lib.Extreme
import Aetheris.PaperAccounts
import Aetheris.PaperViews

namespace Aetheris.PaperExcursions

open Lib Extreme Mutation Money Clock Enums Leverage RiskEngine OrderIdentity PaperRecords PaperGate PaperPricing
  PaperEngine PaperLedger PaperRefinement PaperRuns PaperAccounts PaperOutcomes PaperViews

variable {config : PaperEngineConfig} {now : Timestamp} {marks : Marks} {symbol : String} {p q : MutablePosition}
  {prices : List Decimal} {price : Decimal}

/-- The furthest a position has seen its price go on one side, its entry included. -/
def furthest (up : Bool) (p : MutablePosition) (prices : List Decimal) : Decimal :=
  prices.foldl (outer up) p.entryPrice

/-- The excursions of a position are those of the prices that were observed. -/
structure Recorded (p : MutablePosition) (prices : List Decimal) : Prop where
  best : p.bestPrice = some (furthest p.isLong p prices)
  worst : p.worstPrice = some (furthest (!p.isLong) p prices)

/-- And so is its trail, if it has one, which is a percentage of the price. -/
structure Lived (p : MutablePosition) (prices : List Decimal) : Prop extends Recorded p prices where
  trail : ∀ percent ∈ p.trailingStopPercent,
    0 < percent ∧ percent < 100 ∧ p.trailExtreme = some (furthest p.isLong p prices)

section Observations

theorem furthest_concat (up : Bool) : furthest up p (prices ++ [price]) = outer up (furthest up p prices) price := by
  rw [furthest, List.foldl_append]
  rfl

theorem further_some (up : Bool) (x y : Decimal) : further (some x) y up = some (outer up x y) := by
  unfold further outer
  cases up with
  | true =>
      rcases lt_or_ge x y with h | h
      · simp [h, max_eq_right h.le]
      · simp [not_lt.mpr h, max_eq_left h]
  | false =>
      rcases lt_or_ge y x with h | h
      · simp [h, min_eq_right h.le]
      · simp [not_lt.mpr h, min_eq_left h]

theorem recorded_observe (h : Recorded p prices) (mark : MarkPrice) (hprice : 0 < price) :
    Recorded (observe now mark price p) (prices ++ [price]) := by
  rw [observe, recordExcursion, if_neg (not_le.mpr hprice)]
  constructor
  · change further p.bestPrice price p.isLong = some (furthest p.isLong p (prices ++ [price]))
    rw [h.best, further_some, furthest_concat]
  · change further p.worstPrice price (!p.isLong) = some (furthest (!p.isLong) p (prices ++ [price]))
    rw [h.worst, further_some, furthest_concat]

theorem observe_trail (mark : MarkPrice) (price : Decimal) (p : MutablePosition) :
    (observe now mark price p).trailExtreme = p.trailExtreme := by
  rw [observe, recordExcursion]
  split <;> rfl

theorem lived_observed (h : Lived p prices) (mark : MarkPrice) (hprice : 0 < price) :
    Lived (advanceTrail price (observe now mark price p)) (prices ++ [price]) := by
  have hrecorded : Recorded (observe now mark price p) (prices ++ [price]) :=
    recorded_observe h.toRecorded mark hprice
  have hterms : (observe now mark price p).toEntryTerms = p.toEntryTerms := observe_terms mark price p
  have htrail : (observe now mark price p).trailExtreme = p.trailExtreme := observe_trail mark price p
  revert hrecorded hterms htrail
  generalize observe now mark price p = q
  intro hrecorded hterms htrail
  have hpercent : q.trailingStopPercent = p.trailingStopPercent := congrArg EntryTerms.trailingStopPercent hterms
  have hlong : q.isLong = p.isLong := congrArg EntryTerms.isLong hterms
  have hentry : q.entryPrice = p.entryPrice := congrArg EntryTerms.entryPrice hterms
  cases hset : p.trailingStopPercent with
  | none =>
      rw [advanceTrail, hpercent, hset]
      refine ⟨hrecorded, fun percent hmem => ?_⟩
      change q.trailingStopPercent = some percent at hmem
      rw [hpercent, hset] at hmem
      cases hmem
  | some percent =>
      obtain ⟨hpos, hbelow, hextreme⟩ := h.trail percent hset
      rw [advanceTrail, hpercent, hset, htrail, hextreme]
      refine ⟨⟨hrecorded.best, hrecorded.worst⟩, fun percent' hmem => ?_⟩
      obtain rfl : percent = percent' := by
        change q.trailingStopPercent = some percent' at hmem
        rw [hpercent, hset] at hmem
        exact Option.some.inj hmem
      refine ⟨hpos, hbelow, ?_⟩
      change some (if q.isLong then max _ price else min _ price) = some (furthest q.isLong q (prices ++ [price]))
      rw [furthest_concat, furthest, furthest, hentry, hlong]
      rfl

theorem lived_unmark (h : Lived p prices) (mark : Option MarkPrice) : Lived (unmark mark p) prices :=
  ⟨⟨h.best, h.worst⟩, h.trail⟩

theorem lived_opened {request : SubmitOrderRequest} {entry : Entry} {orderId positionId : String}
    (h : ∀ percent ∈ request.trailingStopPercent, 0 < percent ∧ percent < 100) :
    Lived (openedPosition config request symbol entry now orderId positionId) [] := by
  refine ⟨⟨rfl, rfl⟩, fun percent hmem => ?_⟩
  have hset : request.trailingStopPercent = some percent := hmem
  refine ⟨(h percent hset).1, (h percent hset).2, ?_⟩
  change request.trailingStopPercent.map _ = _
  rw [hset]
  rfl

end Observations

/-- What a tick makes of a position that is held; nothing, where it closes it. -/
def managed (config : PaperEngineConfig) (now : Timestamp) (marks : Marks) (symbol : String) (p : MutablePosition) :
    Option MutablePosition :=
  match usablePrice config symbol (marks.get? symbol) with
  | none => some (unmark (marks.get? symbol) p)
  | some (mark, price) =>
      if (triggeredExit (observe now mark price p) price).isSome then none
      else some (advanceTrail price (observe now mark price p))

section Ticks

variable {r : Repository} {α : Type}

def held (r : Repository) : Dict String MutablePosition := r.state.positions

theorem blind_held : Blind held where
  session _ _ := rfl
  begun _ _ _ := rfl
  sequence _ _ := rfl
  logged _ _ _ := rfl
  stopped _ _ _ := rfl
  touched _ _ := rfl

theorem undated_held : Undated held := blind_held.undated

/-- Every position is kept under its own symbol. -/
def Shelved (d : Dict String MutablePosition) : Prop := ∀ symbol p, d.get? symbol = some p → p.symbol = symbol

theorem shelved_of_keyed (h : Keyed (ledger r)) : Shelved (held r) := by
  intro symbol p hp
  have hterms : (ledger r).positions.get? symbol = some p.toEntryTerms := by
    change (r.state.positions.map _).get? symbol = _
    rw [Dict.get?_map, show r.state.positions.get? symbol = some p from hp]
    rfl
  exact h _ (Dict.get?_eq_some.mp hterms)

theorem shelved_update {d : Dict String MutablePosition} (h : Shelved d) {f : MutablePosition → MutablePosition}
    (hf : ∀ p, (f p).toEntryTerms = p.toEntryTerms) : Shelved (d.update symbol f) := by
  intro key q hq
  rw [Dict.get?_update] at hq
  split at hq
  · obtain ⟨p, hp, rfl⟩ := Option.map_eq_some_iff.mp hq
    exact (congrArg EntryTerms.symbol (hf p)).trans (h key p hp)
  · exact h key q hq

theorem shelved_erase {d : Dict String MutablePosition} (h : Shelved d) : Shelved (d.erase symbol) := by
  intro key q hq
  rw [Dict.get?_erase] at hq
  split at hq
  · cases hq
  · exact h key q hq

variable (config now) in
/-- A position whose price is usable is closed, and nothing else changes of what is held. -/
theorem close_held (r : Repository) (position : MutablePosition) {mark : MarkPrice} (hmark : mark.isUsable = true)
    (reason : PaperExitReason) :
    ∃ trade t, (close config now position mark reason).run r = (.ok trade, t) ∧
      held t = (held r).erase position.symbol := by
  obtain ⟨exit, hrun⟩ := close_booked config now r position hmark reason
  exact ⟨_, _, hrun, congrArg (fun d => Dict.erase d position.symbol) (view_onDay undated_held r)⟩

/-- One position is managed, the others are left alone. -/
def Managed (config : PaperEngineConfig) (now : Timestamp) (marks : Marks) (symbols : List String)
    (before after : Dict String MutablePosition) : Prop :=
  ∀ symbol, after.get? symbol =
    if symbol ∈ symbols then (before.get? symbol).bind (managed config now marks symbol) else before.get? symbol

theorem managed_single {before after : Dict String MutablePosition}
    (hothers : ∀ key, key ≠ symbol → after.get? key = before.get? key)
    (hown : after.get? symbol = (before.get? symbol).bind (managed config now marks symbol)) :
    Managed config now marks [symbol] before after := by
  intro key
  simp only [List.mem_singleton]
  split
  next hkey => rw [hkey, hown]
  next hkey => exact hothers key hkey

variable (config now marks) in
theorem manage_held (symbol : String) (h : Shelved (held r)) :
    ∃ a t, (manage config now marks symbol).run r = (.ok a, t) ∧ Shelved (held t) ∧
      Managed config now marks [symbol] (held r) (held t) := by
  rw [manage, run_bind_ok load_run]
  cases hp : r.state.positions.get? symbol with
  | none =>
      have hnone : (held r).get? symbol = none := hp
      exact ⟨none, r, rfl, h, managed_single (fun _ _ => rfl) (by rw [hnone]; rfl)⟩
  | some p =>
      have hheld : (held r).get? symbol = some p := hp
      dsimp only
      cases husable : usablePrice config symbol (marks.get? symbol) with
      | none =>
          refine ⟨none, _, rfl, shelved_update h fun _ => rfl, managed_single (fun key hkey => ?_) ?_⟩
          · exact (Dict.get?_update ..).trans (if_neg hkey)
          · refine (Dict.get?_update ..).trans ?_
            simp [hp, hheld, managed, husable]
      | some found =>
          obtain ⟨mark, price⟩ := found
          obtain ⟨hfound, hmark, hlast⟩ := usablePrice_usable husable
          dsimp only
          have hobserved : Shelved ((held r).update symbol (observe now mark price)) :=
            shelved_update h (observe_terms mark price)
          have hsymbol : (observe now mark price p).symbol = symbol :=
            (congrArg EntryTerms.symbol (observe_terms mark price p)).trans (h symbol p hp)
          cases hexit : triggeredExit (observe now mark price p) price with
          | none =>
              refine ⟨none, _, rfl, shelved_update hobserved (advanceTrail_terms price),
                managed_single (fun key hkey => ?_) ?_⟩
              · exact ((Dict.get?_update ..).trans (if_neg hkey)).trans ((Dict.get?_update ..).trans (if_neg hkey))
              · refine (Dict.get?_update ..).trans ?_
                rw [if_pos rfl, Dict.get?_update, if_pos rfl]
                simp [hp, hheld, managed, husable, hexit]
          | some reason =>
              obtain ⟨trade, t, hrun, hclosed⟩ := close_held config now
                { r with state := { r.state with positions := (held r).update symbol (observe now mark price) } }
                (observe now mark price p) hmark reason
              rw [hsymbol] at hclosed
              refine ⟨some trade, t, run_bind_ok hrun, ?_, managed_single (fun key hkey => ?_) ?_⟩
              · rw [hclosed]
                exact shelved_erase hobserved
              · rw [hclosed, Dict.get?_erase, if_neg hkey]
                exact (Dict.get?_update ..).trans (if_neg hkey)
              · rw [hclosed, Dict.get?_erase, if_pos rfl]
                simp [hheld, managed, husable, hexit]

variable (config now marks) in
theorem manageAll_held (symbols : List String) (hnodup : symbols.Nodup) (h : Shelved (held r)) :
    ∃ a t, (manageAll config now marks symbols).run r = (.ok a, t) ∧
      Managed config now marks symbols (held r) (held t) := by
  induction symbols generalizing r with
  | nil => exact ⟨[], r, rfl, fun symbol => (if_neg List.not_mem_nil).symm⟩
  | cons symbol rest ih =>
      obtain ⟨hfresh, hrest⟩ := List.nodup_cons.mp hnodup
      obtain ⟨trade, t, hrun, ht, hmanaged⟩ := manage_held config now marks symbol h
      obtain ⟨trades, u, hruns, hmanageds⟩ := ih hrest ht
      refine ⟨trade.toList ++ trades, u, ?_, fun key => ?_⟩
      · rw [manageAll, run_bind_ok hrun, run_bind_ok hruns]
        rfl
      · rw [hmanageds key, hmanaged key]
        by_cases hkey : key = symbol
        · simp [hkey, hfresh]
        · simp [hkey]

variable (config now marks) in
/-- A tick manages every position that is held, whether or not the account can then be reported. -/
theorem tick_held (h : Shelved (held r)) (symbol : String) :
    (held ((PaperEngine.tick config now marks).run r).2).get? symbol =
      ((held r).get? symbol).bind (managed config now marks symbol) := by
  obtain ⟨session, hsession, _⟩ := ensureSession_ok config now r
  have hday : held (onDay config now r) = held r := view_onDay undated_held r
  obtain ⟨closed, t, hclosed, hmanaged⟩ := manageAll_held config now marks (held (onDay config now r)).keys
    (held (onDay config now r)).nodup (hday ▸ h)
  have hclosed : (manageAll config now marks (onDay config now r).state.positions.keys).run (onDay config now r) =
      (.ok closed, t) := hclosed
  have hrun : (PaperEngine.tick config now marks).run r =
      (buildAccount config now marks >>= fun account => pure (account, closed)).run
        { t with state := { t.state with updatedAt := now } } := by
    rw [PaperEngine.tick, run_bind_ok hsession, run_bind_ok load_run, run_bind_ok hclosed, run_bind_ok touch_run]
  have hquiet : Silent held (buildAccount config now marks >>= fun account => pure (account, closed)) :=
    silent_bind (silent_buildAccount undated_held) fun _ => silent_pure
  rw [hrun]
  refine (congrArg (fun d => Dict.get? d symbol) (hquiet _)).trans ?_
  change (held t).get? symbol = _
  rw [hmanaged symbol, hday]
  split
  · rfl
  next habsent =>
    rw [Dict.get?_eq_none.mpr habsent]
    rfl

end Ticks

section Calls

variable [Runtime] {r : Repository} {op : Operation} {α : Type}

/-- What a call makes of a position that it leaves open. -/
def keeps (config : PaperEngineConfig) (symbol : String) (p : MutablePosition) : Operation → Option MutablePosition
  | .tick now marks => managed config now marks symbol p
  | _ => some p

/-- A position as the engine opens it. -/
def Opening (symbol : String) (p : MutablePosition) : Prop :=
  ∃ config request entry now orderId positionId,
    (∀ percent ∈ SubmitOrderRequest.trailingStopPercent request, 0 < percent ∧ percent < 100) ∧
      p = openedPosition config request symbol entry now orderId positionId

/-- What is held under a symbol was held there before, or is opened there. -/
def Kept (config : PaperEngineConfig) (op : Operation) (before after : Dict String MutablePosition) : Prop :=
  ∀ symbol q, after.get? symbol = some q →
    (∃ p, before.get? symbol = some p ∧ keeps config symbol p op = some q) ∨
      before.get? symbol = none ∧ Opening symbol q

omit [Runtime] in
theorem kept_of_eq {before after : Dict String MutablePosition} (h : after = before)
    (hop : ∀ symbol p, keeps config symbol p op = some p) : Kept config op before after := by
  rintro symbol q hq
  rw [h] at hq
  exact .inl ⟨q, hq, hop symbol q⟩

omit [Runtime] in
theorem held_withSequence (n : Nat) (r : Repository) : held (withSequence n r) = held r := rfl

omit [Runtime] in
theorem held_bookEntry (position : MutablePosition) (r : Repository) :
    held (bookEntry position r) = (held r).set position.symbol position := rfl

omit [Runtime] in
variable (config now marks symbol) in
theorem openPosition_held (request : SubmitOrderRequest) (id : String) (entry : Entry) (leverage : LeverageDecision)
    (age : Option Decimal) (detail : Option String) (from_ : Provenance) (r : Repository) :
    ∃ orderId positionId, held ((openPosition config request symbol id entry now leverage age marks detail
        from_).run r).2 =
      (held r).set symbol (openedPosition config request symbol entry now orderId positionId) := by
  obtain ⟨orderId, positionId, n, hbooked⟩ := openPosition_view config now marks blind_held request symbol id entry
    leverage age detail from_ r
  rw [hbooked, held_bookEntry, held_withSequence, view_onDay undated_held]
  exact ⟨orderId, positionId, rfl⟩

theorem submitOrder_held (request : SubmitOrderRequest) (mark : MarkPrice) (filters : Option SymbolFilters)
    (leverage : LeverageDecision) (paperEnabled : Bool) (detail : Option String) (checks : List String)
    (riskMax : Option Decimal) :
    let op := Operation.submitOrder request now mark filters leverage paperEnabled marks detail checks riskMax
    Kept config op (held r) (held (after config r op)) := by
  intro op
  have hday : held (identified config now request r) = held r := view_onDay undated_held r
  cases hnew : repeated r request with
  | some existing =>
      refine kept_of_eq ?_ fun _ _ => rfl
      obtain ⟨text, hrun⟩ : ∃ text, (op.answer config).run r = (replayed config existing
          (Runtime.upper request.symbol) text now (marks.setDefault (Runtime.upper request.symbol) mark)).run
            (identified config now request r) := by
        obtain ⟨session, hsession, _⟩ := ensureSession_ok config now r
        change ∃ text, (PaperEngine.submitOrder _ _ _ _ _ _ _ _ _ _ _).run r = _
        rw [PaperEngine.submitOrder, run_bind_ok hsession]
        dsimp only
        rw [run_bind_ok (clientOrderIdOf_run request), run_bind_ok load_run, repeated_identified, hnew]
        exact ⟨_, rfl⟩
      rw [after, hrun]
      exact (silent_replayed undated_held _ _ _ _).trans hday
  | none =>
      have hrun := submitOrder_decided config now marks request mark filters leverage paperEnabled detail checks
        riskMax hnew
      have hafter : held (after config r op) = held ((conclude config request (Runtime.upper request.symbol) _ now
          leverage mark.ageSeconds (marks.setDefault (Runtime.upper request.symbol) mark) detail
          ⟨some leverage, checks, riskMax⟩ (decisionOn config r request now mark filters leverage paperEnabled)).run
          (identified config now request r)).2 := congrArg (fun x => held (Prod.snd x)) hrun
      rw [hafter]
      cases hdecision : decisionOn config r request now mark filters leverage paperEnabled with
      | error e =>
          cases e with
          | refused refusal => exact kept_of_eq ((silent_reject blind_held _ _ _ _ _ _ _).trans hday) fun _ _ => rfl
          | ruled refusal => exact kept_of_eq ((silent_reject blind_held _ _ _ _ _ _ _).trans hday) fun _ _ => rfl
          | raised e => exact kept_of_eq hday fun _ _ => rfl
      | ok entry =>
          obtain ⟨orderId, positionId, hopen⟩ := openPosition_held config now
            (marks.setDefault (Runtime.upper request.symbol) mark) (Runtime.upper request.symbol) request
            (submittedId request (onDay config now r).state.sequence) entry leverage mark.ageSeconds detail
            ⟨some leverage, checks, riskMax⟩ (identified config now request r)
          rw [hday] at hopen
          intro symbol q hq
          have hq : ((held r).set (Runtime.upper request.symbol) (openedPosition config request
              (Runtime.upper request.symbol) entry now orderId positionId)).get? symbol = some q := by
            rw [← hopen]
            exact hq
          by_cases hsymbol : symbol = Runtime.upper request.symbol
          · subst hsymbol
            rw [Dict.get?_set_self] at hq
            have hfree := (considerOrder_ok hdecision).admitted.free
            rw [onDay_positions] at hfree
            obtain ⟨_, hsizing, _⟩ := considerOrder_iff.mp hdecision
            have htrail := (validateSizing_eq_none.mp hsizing).2.2.2.2.2
            exact .inr ⟨Dict.get?_eq_none.mpr hfree, config, request, entry, now, orderId, positionId, htrail,
              (Option.some.inj hq).symm⟩
          · rw [Dict.get?_set_of_ne _ _ hsymbol] at hq
            exact .inl ⟨q, hq, rfl⟩

abbrev Drops (x : PaperM α) : Prop := Once held (fun before after => ∃ symbol, after = before.erase symbol) x

omit [Runtime] in
theorem drops_close (position : MutablePosition) (mark : MarkPrice) (reason : PaperExitReason) :
    Drops (close config now position mark reason) := by
  refine once_after (silent_raising _) fun _ => once_after (silent_ensureSession undated_held) fun _ => ?_
  refine once_after (silent_nextSequence undated_held) fun _ => once_after silent_load fun _ => ?_
  exact once_then (once_modify fun r => ⟨position.symbol, rfl⟩) fun _ => silent_pure

theorem drops_closePosition (name : String) (mark : MarkPrice) (reason : PaperExitReason) :
    Drops (PaperEngine.closePosition config name now mark reason marks) := by
  refine once_after (silent_ensureSession undated_held) fun _ => once_after silent_load fun state => ?_
  refine once_after (silent_generatedId undated_held _) fun _ => ?_
  cases state.positions.get? (Runtime.upper name) with
  | none => exact once_silent (silent_reject blind_held _ _ _ _ _ _)
  | some position =>
      dsimp only
      split
      · exact once_silent (silent_reject blind_held _ _ _ _ _ _)
      · refine once_then (drops_close position mark reason) fun _ => ?_
        refine silent_bind (silent_nextSequence undated_held) fun _ => silent_bind (silent_building _ _) fun _ => ?_
        refine silent_bind (silent_recordOrder blind_held _) fun _ => ?_
        exact silent_bind (silent_touch undated_held) fun _ => silent_bind (silent_buildAccount undated_held) fun _ =>
          silent_pure

theorem closePosition_held (name : String) (mark : MarkPrice) (reason : PaperExitReason) :
    let op := Operation.closePosition name now mark reason marks
    Kept config op (held r) (held (after config r op)) := by
  intro op
  have hdrops : Drops (op.answer config) := drops_closePosition name mark reason
  rcases hdrops r with hsame | ⟨key, herase⟩
  · exact kept_of_eq hsame fun _ _ => rfl
  · intro symbol q hq
    rw [after, herase, Dict.get?_erase] at hq
    split at hq
    · cases hq
    · exact .inl ⟨q, hq, rfl⟩

/-- Whatever is held after a call was held before it, or opened by it. -/
theorem after_held (h : Shelved (held r)) : Kept config op (held r) (held (after config r op)) := by
  cases op with
  | submitOrder request now mark filters leverage paperEnabled marks detail checks riskMax =>
      exact submitOrder_held request mark filters leverage paperEnabled detail checks riskMax
  | refuse request now code detail marks from_ =>
      exact kept_of_eq (silent_refuse blind_held request code detail from_ r) fun _ _ => rfl
  | replay id now marks => exact kept_of_eq (silent_replay undated_held id r) fun _ _ => rfl
  | closePosition name now mark reason marks => exact closePosition_held name mark reason
  | tick now marks =>
      intro symbol q hq
      have htick := tick_held config now marks h symbol
      obtain ⟨p, hp, hmanaged⟩ := Option.bind_eq_some_iff.mp (htick.symm.trans hq)
      exact .inl ⟨p, hp, hmanaged⟩
  | setEmergencyStop engaged reason now =>
      exact kept_of_eq (silent_setEmergencyStop undated_held engaged reason r) fun _ _ => rfl
  | snapshot now marks => exact kept_of_eq (silent_snapshot undated_held r) fun _ _ => rfl

end Calls

/-- The usable price a call observes of a symbol. -/
def shown (config : PaperEngineConfig) (symbol : String) : Operation → Option Decimal
  | .tick _ marks => (usablePrice config symbol (marks.get? symbol)).map Prod.snd
  | _ => none

def observed (config : PaperEngineConfig) (symbol : String) (ops : List Operation) : List Decimal :=
  ops.filterMap (shown config symbol)

/-- The marks of a tick carry positive prices. -/
def Priced : Operation → Prop
  | .tick _ marks => ∀ symbol, ∀ mark ∈ marks.get? symbol, ∀ price ∈ mark.lastPrice, 0 < price
  | _ => True

section Steps

variable {op : Operation}

theorem priced_usable {mark : MarkPrice} (h : Priced (.tick now marks))
    (husable : usablePrice config symbol (marks.get? symbol) = some (mark, price)) : 0 < price := by
  obtain ⟨hfound, _, hlast⟩ := usablePrice_usable husable
  exact h symbol mark hfound price hlast

theorem keeps_terms (h : keeps config symbol p op = some q) : q.toEntryTerms = p.toEntryTerms := by
  unfold keeps at h
  split at h
  · unfold managed at h
    split at h
    · obtain rfl := Option.some.inj h
      rfl
    · split at h
      · cases h
      · obtain rfl := Option.some.inj h
        rw [advanceTrail_terms, observe_terms]
  · obtain rfl := Option.some.inj h
    rfl

/-- A call that leaves a position open lets it live through what the call observes. -/
theorem lived_keeps (h : Lived p prices) (hop : Priced op) (hkeeps : keeps config symbol p op = some q) :
    Lived q (prices ++ (shown config symbol op).toList) := by
  cases op with
  | tick now marks =>
      change managed config now marks symbol p = some q at hkeeps
      unfold managed at hkeeps
      cases husable : usablePrice config symbol (marks.get? symbol) with
      | none =>
          rw [husable] at hkeeps
          obtain rfl := Option.some.inj hkeeps
          rw [shown, husable]
          simpa using lived_unmark h _
      | some found =>
          obtain ⟨mark, price⟩ := found
          rw [husable] at hkeeps
          dsimp only at hkeeps
          split at hkeeps
          · cases hkeeps
          · obtain rfl := Option.some.inj hkeeps
            rw [shown, husable]
            exact lived_observed h mark (priced_usable hop husable)
  | _ =>
      obtain rfl := Option.some.inj hkeeps
      simpa [shown] using h

end Steps

section Levels

theorem below_mono {x y percent : Decimal} (hxy : x ≤ y) (hbelow : percent < 100) :
    x - x * percent / 100 ≤ y - y * percent / 100 := by
  have hscaled : x * (1 - percent / 100) ≤ y * (1 - percent / 100) :=
    mul_le_mul_of_nonneg_right hxy (by linarith)
  linarith

theorem above_mono {x y percent : Decimal} (hxy : x ≤ y) (hpos : 0 < percent) :
    x + x * percent / 100 ≤ y + y * percent / 100 := by
  have hscaled : x * percent ≤ y * percent := mul_le_mul_of_nonneg_right hxy hpos.le
  linarith

/-- The trail has gone the way of the position, or it has stayed. -/
theorem trailingLevel_advances {more : List Decimal} (hp : Lived p prices) (hq : Lived q (prices ++ more))
    (hterms : q.toEntryTerms = p.toEntryTerms) {level : Decimal} (h : trailingLevel p = some level) :
    ∃ level', trailingLevel q = some level' ∧ if p.isLong then level ≤ level' else level' ≤ level := by
  obtain ⟨percent, hset, h⟩ := Option.bind_eq_some_iff.mp h
  obtain ⟨hpos, hbelow, hextreme⟩ := hp.trail percent hset
  have hset' : q.trailingStopPercent = some percent := (congrArg EntryTerms.trailingStopPercent hterms).trans hset
  have hlong : q.isLong = p.isLong := congrArg EntryTerms.isLong hterms
  have hentry : q.entryPrice = p.entryPrice := congrArg EntryTerms.entryPrice hterms
  have hextreme' := (hq.trail percent hset').2.2
  have hfurther : ∀ up, furthest up q (prices ++ more) = more.foldl (outer up) (furthest up p prices) := by
    intro up
    rw [furthest, List.foldl_append, furthest, hentry]
  rw [hfurther, hlong] at hextreme'
  rw [hextreme] at h
  rw [trailingLevel, hset', hextreme']
  have hbeyond := isExtreme_foldl p.isLong (furthest p.isLong p prices) more
  obtain rfl := Option.some.inj h
  refine ⟨_, rfl, ?_⟩
  dsimp only
  cases hside : p.isLong with
  | true =>
      rw [hside] at hbeyond
      rw [if_pos (hlong.trans hside)]
      exact below_mono (hbeyond.2 (Set.mem_insert _ _)) hbelow
  | false =>
      rw [hside] at hbeyond
      rw [hlong, hside]
      exact above_mono (hbeyond.2 (Set.mem_insert _ _)) hpos

end Levels

section Runs

variable [Runtime] {r₀ : Repository} {ops before later : List Operation} {entry op : Operation}

/-- A call opened the position, and it has been held under its terms ever since. -/
structure Since (config : PaperEngineConfig) (r₀ : Repository) (before : List Operation) (entry : Operation)
    (later : List Operation) (symbol : String) (p : MutablePosition) : Prop where
  absent : (held (run config r₀ before)).get? symbol = none
  stays : ∀ past, past <+: later →
    ∃ q, (held (run config r₀ (before ++ entry :: past))).get? symbol = some q ∧ q.toEntryTerms = p.toEntryTerms

theorem run_concat (r : Repository) (ops : List Operation) (op : Operation) :
    run config r (ops ++ [op]) = after config (run config r ops) op := List.foldl_concat ..

theorem keyed_run (h : Keyed (ledger r₀)) (ops : List Operation) : Keyed (ledger (run config r₀ ops)) := by
  induction ops using List.reverseRecOn with
  | nil => exact h
  | append_singleton ops op ih =>
      rw [run_concat]
      exact keyed_after ih

theorem since_concat (h : Since config r₀ before entry later symbol p) (hterms : q.toEntryTerms = p.toEntryTerms)
    (hq : (held (run config r₀ (before ++ entry :: (later ++ [op])))).get? symbol = some q) :
    Since config r₀ before entry (later ++ [op]) symbol q := by
  refine ⟨h.absent, fun past hpast => ?_⟩
  rcases List.prefix_concat_iff.mp hpast with rfl | hpast
  · exact ⟨q, hq, rfl⟩
  · obtain ⟨q', hq', hterms'⟩ := h.stays past hpast
    exact ⟨q', hq', hterms'.trans hterms.symm⟩

/-- Whatever is held at the end of a run was opened in it, and has lived through
all that was observed since. -/
theorem lived_run (hkeyed : Keyed (ledger r₀)) (hempty : ∀ symbol, (held r₀).get? symbol = none)
    (hpriced : ∀ op ∈ ops, Priced op) (hp : (held (run config r₀ ops)).get? symbol = some p) :
    ∃ before entry later, ops = before ++ entry :: later ∧ Since config r₀ before entry later symbol p ∧
      Lived p (observed config symbol later) := by
  induction ops using List.reverseRecOn generalizing p with
  | nil =>
      rw [show (held (run config r₀ [])).get? symbol = none from hempty symbol] at hp
      cases hp
  | append_singleton ops op ih =>
      have hrest : ∀ op ∈ ops, Priced op := fun op hop => hpriced op (List.mem_append_left _ hop)
      have hp' : (held (after config (run config r₀ ops) op)).get? symbol = some p := by
        rw [← run_concat]
        exact hp
      have hshelved : Shelved (held (run config r₀ ops)) := shelved_of_keyed (keyed_run hkeyed ops)
      rcases after_held hshelved symbol p hp' with ⟨q, hq, hkeeps⟩ | ⟨hnone, hopening⟩
      · obtain ⟨before, entry, later, rfl, hsince, hlived⟩ := ih hrest hq
        rw [List.append_assoc, List.cons_append] at hp
        refine ⟨before, entry, later ++ [op], by simp, since_concat hsince (keeps_terms hkeeps) hp, ?_⟩
        have hmore : observed config symbol (later ++ [op]) =
            observed config symbol later ++ (shown config symbol op).toList := by
          rw [observed, List.filterMap_append]
          cases hshown : shown config symbol op <;> simp [observed, hshown]
        rw [hmore]
        exact lived_keeps hlived (hpriced op (by simp)) hkeeps
      · refine ⟨ops, op, [], rfl, ⟨hnone, fun past hpast => ?_⟩, ?_⟩
        · rw [List.prefix_nil.mp hpast]
          exact ⟨p, hp, rfl⟩
        · obtain ⟨_, request, entry, now, orderId, positionId, htrail, rfl⟩ := hopening
          exact lived_opened htrail

/-- The entry price of a position and the prices observed of it. -/
def seen (p : MutablePosition) (prices : List Decimal) : Set Decimal := insert p.entryPrice {x | x ∈ prices}

/-- What a further tick does to a position that has seen some prices. -/
structure Ticks (config : PaperEngineConfig) (r : Repository) (symbol : String) (p : MutablePosition)
    (prices : List Decimal) (now : Timestamp) (marks : Marks) : Prop where
  unusable : usablePrice config symbol (marks.get? symbol) = none →
    ∃ q, (held (after config r (.tick now marks))).get? symbol = some q ∧ q.bestPrice = p.bestPrice ∧
      q.worstPrice = p.worstPrice ∧ q.trailExtreme = p.trailExtreme
  level : ∀ q, (held (after config r (.tick now marks))).get? symbol = some q →
    ∀ level, trailingLevel p = some level →
      ∃ level', trailingLevel q = some level' ∧ if p.isLong then level ≤ level' else level' ≤ level
  closing : (held (after config r (.tick now marks))).get? symbol = none →
    ∃ mark price reason best worst, usablePrice config symbol (marks.get? symbol) = some (mark, price) ∧
      let closed := observe now mark price p
      triggeredExit closed price = some reason ∧ closed.bestPrice = some best ∧ closed.worstPrice = some worst ∧
        IsExtreme p.isLong (insert price (seen p prices)) best ∧
        IsExtreme (!p.isLong) (insert price (seen p prices)) worst

theorem ticks_of_lived {r : Repository} (hshelved : Shelved (held r)) (hp : (held r).get? symbol = some p)
    (h : Lived p prices) (hpriced : Priced (.tick now marks)) : Ticks config r symbol p prices now marks := by
  have htick : (held (after config r (.tick now marks))).get? symbol = managed config now marks symbol p := by
    have htick := tick_held config now marks hshelved symbol
    rw [hp] at htick
    exact htick
  constructor
  · intro hunusable
    refine ⟨unmark (marks.get? symbol) p, ?_, rfl, rfl, rfl⟩
    rw [htick, managed, hunusable]
  · intro q hq level hlevel
    rw [htick] at hq
    have hkeeps : keeps config symbol p (.tick now marks) = some q := hq
    exact trailingLevel_advances h (lived_keeps h hpriced hkeeps) (keeps_terms hkeeps) hlevel
  · intro hnone
    rw [htick, managed] at hnone
    split at hnone
    · cases hnone
    next mark price husable =>
      split at hnone
      next hexit =>
        obtain ⟨reason, hreason⟩ := Option.isSome_iff_exists.mp hexit
        have hrecorded : Recorded (observe now mark price p) (prices ++ [price]) :=
          recorded_observe h.toRecorded mark (priced_usable hpriced husable)
        have hterms : (observe now mark price p).toEntryTerms = p.toEntryTerms := observe_terms mark price p
        have hfurthest : ∀ up, furthest up (observe now mark price p) (prices ++ [price]) =
            outer up (furthest up p prices) price := by
          intro up
          rw [furthest_concat, furthest, furthest, congrArg EntryTerms.entryPrice hterms]
        have hlong : (observe now mark price p).isLong = p.isLong := congrArg EntryTerms.isLong hterms
        obtain ⟨hbest, hworst⟩ := hrecorded
        rw [hfurthest, hlong] at hbest hworst
        exact ⟨mark, price, reason, _, _, husable, hreason, hbest, hworst,
          (isExtreme_foldl p.isLong p.entryPrice prices).insert price,
          (isExtreme_foldl (!p.isLong) p.entryPrice prices).insert price⟩
      · cases hnone

/-- The excursions of an open position are the extremes of its entry price and
of every usable price that a tick has seen since; so is the extreme its trail
follows; and the next tick keeps it so, up to the price that closes it. -/
theorem excursions_are_extremes (config : PaperEngineConfig) (startingBalance : Decimal) (now : Timestamp)
    (durability : Durability) (ops : List Operation) (hpriced : ∀ op ∈ ops, Priced op) :
    let r := run config (opening startingBalance now durability) ops
    ∀ symbol p, (held r).get? symbol = some p →
      ∃ before entry later best worst, ops = before ++ entry :: later ∧
        Since config (opening startingBalance now durability) before entry later symbol p ∧
        let prices := observed config symbol later
        p.bestPrice = some best ∧ IsExtreme p.isLong (seen p prices) best ∧
        p.worstPrice = some worst ∧ IsExtreme (!p.isLong) (seen p prices) worst ∧
        (p.trailingStopPercent.isSome → ∃ extreme, p.trailExtreme = some extreme ∧
          IsExtreme p.isLong (seen p prices) extreme) ∧
        ∀ now marks, Priced (.tick now marks) → Ticks config r symbol p prices now marks := by
  intro r symbol p hp
  obtain ⟨before, entry, later, hops, hsince, hlived⟩ := lived_run keyed_opening (fun _ => rfl) hpriced hp
  have hshelved : Shelved (held r) := shelved_of_keyed (keyed_run keyed_opening ops)
  refine ⟨before, entry, later, _, _, hops, hsince, hlived.best, isExtreme_foldl _ _ _, hlived.worst,
    isExtreme_foldl _ _ _, fun htrail => ?_, fun now marks hmarks => ticks_of_lived hshelved hp hlived hmarks⟩
  obtain ⟨percent, hpercent⟩ := Option.isSome_iff_exists.mp htrail
  exact ⟨_, (hlived.trail percent hpercent).2.2, isExtreme_foldl _ _ _⟩

end Runs

def quotedAt (price : Decimal) (status : DataStatus) : Operation :=
  .tick 0 (Dict.empty.set "BTCUSDT" { exampleMark with lastPrice := some price, status := status })

/-- A purchase at 100 with a trail of five percent, then 110, a stale 130, and 108. -/
def trailed : List Operation :=
  [.submitOrder { symbol := "BTCUSDT", side := .buy, margin := some 10, trailingStopPercent := some 5 } 0 exampleMark
      none exampleDecision true .empty none [] none,
    quotedAt 110 .ok, quotedAt 130 .stale, quotedAt 108 .ok]

theorem trailed_priced : ∀ op ∈ trailed, Priced op := by
  intro op hop
  simp only [trailed, List.mem_cons, List.not_mem_nil, or_false] at hop
  rcases hop with rfl | rfl | rfl | rfl
  · trivial
  all_goals
    intro symbol mark hmark price hprice
    have hvalue := Dict.mem_values.mpr ⟨symbol, hmark⟩
    obtain rfl := List.mem_singleton.mp hvalue
    cases hprice
    norm_num

theorem excursions_are_extremes_trailed :
    let r := @run referenceRuntime exampleConfig (opening 1000 0 .inMemory) trailed
    ∃ p prices, (held r).get? "BTCUSDT" = some p ∧ p.bestPrice = some 110 ∧ p.worstPrice = some 100 ∧
      p.trailExtreme = some 110 ∧ IsExtreme true (seen p prices) 110 ∧ IsExtreme false (seen p prices) 100 := by
  intro r
  have hfigures : ((held r).get? "BTCUSDT").map (fun p => (p.bestPrice, p.worstPrice, p.trailExtreme, p.isLong)) =
      some (some 110, some 100, some 110, true) := by decide +kernel
  obtain ⟨p, hp, hfigures⟩ := Option.map_eq_some_iff.mp hfigures
  simp only [Prod.mk.injEq] at hfigures
  obtain ⟨hbest, hworst, htrail, hlong⟩ := hfigures
  obtain ⟨_, _, later, best, worst, _, _, hbest', hextreme, hworst', hextreme', _⟩ :=
    @excursions_are_extremes referenceRuntime exampleConfig 1000 0 .inMemory trailed trailed_priced "BTCUSDT" p hp
  obtain rfl := Option.some.inj (hbest.symm.trans hbest')
  obtain rfl := Option.some.inj (hworst.symm.trans hworst')
  rw [hlong] at hextreme hextreme'
  exact ⟨p, _, hp, hbest, hworst, htrail, hextreme, hextreme'⟩

end Aetheris.PaperExcursions
