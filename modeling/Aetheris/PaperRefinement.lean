import Aetheris.PaperEngine
import Aetheris.PaperLedger

namespace Aetheris.PaperRefinement

open Lib Mutation Money Clock Enums Leverage RiskEngine OrderIdentity PaperRecords PaperGate PaperPricing
  PaperEngine PaperLedger

def line (s : MutableSession) : SessionLine where
  date := s.sessionDate
  realizedPnl := s.realizedPnl
  fees := s.fees
  profitTarget := s.profitTarget
  lossLimit := s.lossLimit
  lockState := s.lockState

def ledger (r : Repository) : Ledger where
  startingBalance := r.state.startingBalance
  balance := r.state.balance
  realizedPnl := r.state.realizedPnl
  totalFees := r.state.totalFees
  session := r.state.session.map line
  positions := r.state.positions.map MutablePosition.toEntryTerms
  trades := r.state.trades
  journal := r.journal

theorem mem_terms {r : Repository} {t : EntryTerms} :
    t ∈ (ledger r).positions.values ↔ ∃ p ∈ r.state.positions.values, p.toEntryTerms = t := by
  change t ∈ (r.state.positions.map _).values ↔ _
  rw [Dict.values_map, List.mem_map]

/-- Every position is kept under its own symbol. -/
def Keyed (l : Ledger) : Prop := ∀ e ∈ l.positions.entries, e.2.symbol = e.1

def Today (today : Int) (l : Ledger) : Prop := Keyed l ∧ ∃ s, l.session = some s ∧ s.date = today

variable {config : PaperEngineConfig} {today : Int} {admits : Ledger → EntryTerms → Prop} {l : Ledger}

theorem keyed_enter {t : EntryTerms} (h : Keyed l) (hfree : t.symbol ∉ l.positions.keys) :
    Keyed (enter today t l) := by
  intro e he
  change e ∈ (l.positions.set t.symbol t).entries at he
  rw [Dict.set_of_not_mem hfree] at he
  rcases List.mem_append.mp he with he | he
  · exact h e he
  · rw [List.mem_singleton] at he
    subst he
    rfl

theorem today_start (h : Keyed l) : Today today (start config today l) := ⟨h, _, rfl, rfl⟩

theorem today_enter {t : EntryTerms} (h : Today today l) (hfree : t.symbol ∉ l.positions.keys) :
    Today today (enter today t l) := by
  obtain ⟨hkeyed, s, hs, hday⟩ := h
  refine ⟨keyed_enter hkeyed hfree, s.charge (-t.entryFee) t.entryFee, ?_, hday⟩
  change l.session.map _ = _
  rw [hs]
  rfl

theorem today_leave {t : EntryTerms} {trade : PaperTrade} {fee : Decimal} {s : SessionLine} (h : Keyed l)
    (hday : s.date = today) : Today today (leave config today t trade fee s l) :=
  ⟨fun e he => h e (List.mem_of_mem_filter he), _, rfl, (SessionLine.locked_date _).trans hday⟩

section Silence

variable {ω α β : Type} {view : Repository → ω} {now : Timestamp} {marks : Marks}

theorem silent_raising (x : Except PaperError α) : Silent view (raising x) := by
  cases x with
  | ok a => exact silent_pure
  | error e => exact silent_throw

theorem silent_building (ok : Bool) (record : String) : Silent view (building ok record) := by
  unfold building
  split
  · exact silent_pure
  · exact silent_throw

theorem silent_load : Silent view load := silent_bind silent_get fun _ => silent_pure

theorem silent_reportPosition (p : MutablePosition) : Silent view (reportPosition config now marks p) :=
  silent_bind (silent_building _ _) fun _ => silent_pure

theorem silent_reportPositions (ps : List MutablePosition) : Silent view (reportPositions config now marks ps) := by
  induction ps with
  | nil => exact silent_pure
  | cons p rest ih => exact silent_bind (silent_reportPosition p) fun _ => silent_bind ih fun _ => silent_pure

theorem silent_reportHeld (held : Option MutablePosition) : Silent view (reportHeld config now marks held) := by
  cases held with
  | none => exact silent_pure
  | some p => exact silent_bind (silent_reportPosition p) fun _ => silent_pure

abbrev Quiet (x : PaperM α) : Prop := Silent ledger x

theorem quiet_modifyState {f : PaperState → PaperState}
    (h : ∀ r : Repository, ledger { r with state := f r.state } = ledger r) : Quiet (modifyState f) :=
  silent_modify h

theorem quiet_nextSequence : Quiet nextSequence :=
  silent_bind (quiet_modifyState fun _ => rfl) fun _ => silent_bind silent_load fun _ => silent_pure

theorem quiet_touch : Quiet (touch now) := quiet_modifyState fun _ => rfl

theorem quiet_onSession {f : MutableSession → MutableSession} (h : ∀ s, line (f s) = line s) :
    Quiet (onSession f) := by
  refine quiet_modifyState fun r => ?_
  have hline : (r.state.session.map f).map line = r.state.session.map line := by
    rw [Option.map_map]
    exact congrArg (r.state.session.map ·) (funext h)
  change ({ ledger r with session := (r.state.session.map f).map line } : Ledger) = ledger r
  rw [hline]
  rfl

theorem quiet_updatePosition {symbol : String} {f : MutablePosition → MutablePosition}
    (h : ∀ p, (f p).toEntryTerms = p.toEntryTerms) : Quiet (updatePosition symbol f) := by
  refine quiet_modifyState fun r => ?_
  change ({ ledger r with positions := (r.state.positions.update symbol f).map _ } : Ledger) = ledger r
  rw [Dict.map_update h]
  rfl

theorem quiet_recordOrder (order : PaperOrder) : Quiet (recordOrder config order) :=
  silent_bind (quiet_modifyState fun _ => rfl) fun _ => quiet_modifyState fun _ => rfl

theorem quiet_generatedId (stem : String) : Quiet (generatedId stem) :=
  silent_bind quiet_nextSequence fun _ => silent_pure

theorem quiet_clientOrderIdOf (request : SubmitOrderRequest) : Quiet (clientOrderIdOf request) := by
  unfold clientOrderIdOf
  cases request.clientOrderId with
  | none => exact quiet_generatedId _
  | some id =>
      dsimp only
      split
      · exact quiet_generatedId _
      · exact silent_pure

end Silence

section Bookings

variable {now : Timestamp}

theorem line_applyDailyLock (s : MutableSession) : line (applyDailyLock now s) = (line s).locked := by
  change _ = if s.lockState ≠ .none then line s
    else if s.profitTarget ≤ s.realizedPnl then { line s with lockState := .dailyProfitTarget }
    else if s.realizedPnl ≤ s.lossLimit then { line s with lockState := .dailyLossLimit }
    else line s
  unfold applyDailyLock
  dsimp only
  split_ifs <;> rfl

theorem session_charge (delta fee : Decimal) (session : Option MutableSession) :
    (session.map (chargeSession delta fee)).map line = (session.map line).map (SessionLine.charge delta fee) := by
  rw [Option.map_map, Option.map_map]
  rfl

theorem ledger_bookEntry {position : MutablePosition} {r : Repository}
    (hfree : position.symbol ∉ r.state.positions.keys) :
    ledger (bookEntry position r) = enter (date position.openedAt) position.toEntryTerms (ledger r) := by
  have hsession : ((r.state.session.map (chargeSession (-position.entryFee) position.entryFee)).map
      fun s => { s with ordersSubmitted := s.ordersSubmitted + 1 }).map line =
      (r.state.session.map line).map (SessionLine.charge (-position.entryFee) position.entryFee) := by
    rw [← session_charge, Option.map_map]
    rfl
  exact Ledger.ext rfl rfl rfl rfl hsession (Dict.map_set _ hfree) rfl rfl

theorem ledger_bookExit {position : MutablePosition} {exit : Exit} {reason : PaperExitReason} {tradeId : String}
    {r : Repository} {s : MutableSession} (hs : r.state.session = some s) :
    ledger (bookExit config now position exit reason tradeId r) =
      leave config (date now) position.toEntryTerms (tradeOf now position exit reason tradeId
        (charge (exit.gross - exit.fee) exit.fee r.state).balance) exit.fee (line s) (ledger r) := by
  have hlocked : line (applyDailyLock now
      { chargeSession (exit.gross - exit.fee) exit.fee s with tradesClosed := s.tradesClosed + 1 }) =
      ((line s).charge (exit.gross - exit.fee) exit.fee).locked := line_applyDailyLock _
  refine Ledger.ext rfl rfl rfl rfl ?_ (Dict.map_erase _ _ _) rfl ?_
  · change Option.map line (Option.map _ (Option.map _ r.state.session)) = _
    rw [hs]
    exact congrArg some hlocked
  · change r.journal ++ _ :: lockEvents r.state.session (Option.map _ (Option.map _ r.state.session)) = _
    rw [hs]
    change _ = r.journal ++ _ :: lockedEvents (line s) _
    rw [show (tradeOf now position exit reason tradeId
      (charge (exit.gross - exit.fee) exit.fee r.state).balance).grossPnl = exit.gross from rfl, ← hlocked]
    rfl

end Bookings

section Sessions

variable {α : Type} {now : Timestamp} {post : α → Repository → Prop} {pre : Repository → Prop}

abbrev Does (config : PaperEngineConfig) (now : Timestamp) (admits : Ledger → EntryTerms → Prop)
    (pre : Repository → Prop) (x : PaperM α) (post : α → Repository → Prop) : Prop :=
  Moves ledger (Move config (date now) admits) pre x post

/-- From here on the day's session is the one that is stored. -/
abbrev Begun (now : Timestamp) (r : Repository) : Prop := Today (date now) (ledger r)

theorem ensureSession_run (r : Repository) :
    (ensureSession config now).run r =
      match r.state.session with
      | some s =>
          if s.sessionDate = date now then (.ok s, r) else (.ok (freshSession config now), beginSession config now r)
      | none => (.ok (freshSession config now), beginSession config now r) := by
  change (match r.state.session with
    | some session => if session.sessionDate = date now then pure session else startSession config now
    | none => startSession config now : PaperM MutableSession).run r = _
  cases r.state.session with
  | none => rfl
  | some s =>
      dsimp only
      split <;> rfl

theorem ensureSession_does : Does config now admits (fun r => Keyed (ledger r)) (ensureSession config now)
    (fun _ => Begun now) := by
  intro r hkeyed
  rw [ensureSession_run]
  have hstart : (∀ s ∈ (ledger r).session, s.date ≠ date now) →
      Relation.ReflTransGen (Move config (date now) admits) (ledger r) (ledger (beginSession config now r)) :=
    fun hday => .single (.start hday)
  cases hs : r.state.session with
  | none =>
      refine ⟨hstart ?_, fun _ _ => today_start hkeyed⟩
      simp [ledger, hs]
  | some s =>
      dsimp only
      split
      next hday => exact ⟨.refl, fun _ _ => ⟨hkeyed, line s, by simp [ledger, hs], hday⟩⟩
      next hday =>
        refine ⟨hstart ?_, fun _ _ => today_start hkeyed⟩
        simpa [ledger, hs, line] using hday

theorem ensureSession_begun (P : Ledger → Prop) (hP : ∀ l, P l → Today (date now) l) :
    Does config now admits (fun r => P (ledger r)) (ensureSession config now) (fun _ r => P (ledger r)) := by
  intro r hr
  obtain ⟨_, s, hs, hday⟩ := hP _ hr
  obtain ⟨ms, hms, rfl⟩ := Option.map_eq_some_iff.mp hs
  have hrun : (ensureSession config now).run r = (.ok ms, r) := by
    rw [ensureSession_run, hms]
    exact if_pos hday
  rw [hrun]
  exact ⟨.refl, fun _ _ => hr⟩

theorem load_does {f : PaperState → PaperM α}
    (h : ∀ state, Does config now admits (fun r => pre r ∧ r.state = state) (f state) post) :
    Does config now admits pre (load >>= f) post := by
  intro r hr
  exact h r.state r ⟨hr, rfl⟩

theorem quiet_does {x : PaperM α} (h : Quiet x) (P : Ledger → Prop) :
    Does config now admits (fun r => P (ledger r)) x (fun _ r => P (ledger r)) := moves_silent h P

theorem buildAccount_does (marks : Marks) :
    Does config now admits (Begun now) (buildAccount config now marks) (fun _ => Begun now) := by
  refine load_does fun state => ?_
  refine moves_bind (q := fun _ => Begun now) ?_ fun positions => ?_
  · exact moves_pre (quiet_does (silent_reportPositions _) (Today (date now))) fun _ hr => hr.1
  refine moves_bind (ensureSession_begun (Today (date now)) fun _ hl => hl) fun session => ?_
  exact quiet_does (silent_bind silent_get fun _ => silent_pure) _

theorem reject_does (symbol : String) (request : SubmitOrderRequest) (id : String) (refusal : RiskRefusal)
    (marks : Marks) (reduceOnly : Bool) (from_ : Provenance) :
    Does config now admits (Begun now)
      (reject config symbol request id refusal now marks reduceOnly from_) (fun _ => Begun now) := by
  refine moves_bind (ensureSession_begun (Today (date now)) fun _ hl => hl) fun _ => ?_
  refine moves_after_silent (quiet_onSession ?_) fun _ => ?_
  · exact fun _ => rfl
  refine moves_after_silent quiet_nextSequence fun _ => ?_
  refine moves_after_silent (silent_building _ _) fun _ => ?_
  refine moves_after_silent (quiet_recordOrder _) fun _ => ?_
  refine moves_after_silent quiet_touch fun _ => ?_
  exact moves_returning (buildAccount_does marks)

end Sessions

section Trades

variable {now : Timestamp}

/-- What must be known of the ledger for an entry to be booked on it. -/
structure Ready (config : PaperEngineConfig) (request : SubmitOrderRequest) (symbol : String) (entry : Entry)
    (now : Timestamp) (admits : Ledger → EntryTerms → Prop) (l : Ledger) : Prop where
  begun : Today (date now) l
  unlocked : ∀ s ∈ l.session, s.lockState = .none
  free : symbol ∉ l.positions.keys
  admitted : ∀ orderId positionId,
    admits l (openedPosition config request symbol entry now orderId positionId).toEntryTerms

theorem openPosition_does (request : SubmitOrderRequest) (symbol id : String) (entry : Entry)
    (leverage : LeverageDecision) (age : Option Decimal) (marks : Marks) (detail : Option String)
    (from_ : Provenance) :
    Does config now admits (fun r => Ready config request symbol entry now admits (ledger r))
      (openPosition config request symbol id entry now leverage age marks detail from_) (fun _ => Begun now) := by
  refine moves_bind (ensureSession_begun (Ready config request symbol entry now admits) fun _ hl => hl.begun)
    fun _ => ?_
  refine moves_after_silent quiet_nextSequence fun orderNumber => ?_
  refine moves_after_silent quiet_nextSequence fun positionNumber => ?_
  refine moves_bind (q := fun _ => Begun now) (moves_modify fun r hr => ?_) fun _ => ?_
  · obtain ⟨_, s, hs, hday⟩ := hr.begun
    have hkeys : symbol ∉ r.state.positions.keys := by
      rw [← Dict.keys_of_map MutablePosition.toEntryTerms]
      exact hr.free
    rw [Begun, ledger_bookEntry hkeys]
    exact ⟨.single (.enter hs hday (hr.unlocked s hs) hr.free (eightPlaces_quantizeUsdt _) (hr.admitted _ _)),
      today_enter hr.begun hr.free⟩
  refine moves_after_silent quiet_nextSequence fun _ => ?_
  refine moves_after_silent (silent_building _ _) fun _ => ?_
  refine moves_after_silent (silent_building _ _) fun _ => ?_
  refine moves_after_silent (quiet_recordOrder _) fun _ => ?_
  refine moves_after_silent quiet_touch fun _ => ?_
  refine moves_after_silent (silent_reportPosition _) fun _ => ?_
  exact moves_returning (buildAccount_does marks)

def Held (now : Timestamp) (t : EntryTerms) (l : Ledger) : Prop :=
  Today (date now) l ∧ l.positions.get? t.symbol = some t

theorem close_does (position : MutablePosition) (mark : MarkPrice) (reason : PaperExitReason) :
    Does config now admits (fun r => Held now position.toEntryTerms (ledger r))
      (close config now position mark reason) (fun _ => Begun now) := by
  refine moves_after_silent (P := Held now position.toEntryTerms) (silent_raising _) fun fill => ?_
  refine moves_bind (ensureSession_begun (Held now position.toEntryTerms) fun _ hl => hl.1) fun _ => ?_
  refine moves_after_silent quiet_nextSequence fun number => ?_
  refine load_does fun state => ?_
  refine moves_returning (q := Begun now) (moves_modify fun r hr => ?_)
  obtain ⟨⟨hkeyed, s, hs, hday⟩, hheld⟩ := hr.1
  obtain ⟨ms, hms, rfl⟩ := Option.map_eq_some_iff.mp hs
  rw [Begun, ledger_bookExit hms]
  exact ⟨.single (.leave hs hday hheld (eightPlaces_quantizeUsdt _) (eightPlaces_quantizeUsdt _) rfl rfl),
    today_leave hkeyed hday⟩

theorem held_of_get? {r : Repository} {symbol : String} {position : MutablePosition} (h : Begun now r)
    (hget : r.state.positions.get? symbol = some position) :
    position.symbol = symbol ∧ Held now position.toEntryTerms (ledger r) := by
  have hterms : (ledger r).positions.get? symbol = some position.toEntryTerms := by
    change (r.state.positions.map _).get? symbol = _
    rw [Dict.get?_map, hget]
    rfl
  have hsymbol : position.symbol = symbol := h.1 _ (Dict.get?_eq_some.mp hterms)
  exact ⟨hsymbol, h, by rw [hsymbol]; exact hterms⟩

theorem observe_terms (mark : MarkPrice) (price : Decimal) (p : MutablePosition) :
    (observe now mark price p).toEntryTerms = p.toEntryTerms := by
  unfold observe recordExcursion
  split <;> rfl

theorem advanceTrail_terms (price : Decimal) (p : MutablePosition) :
    (advanceTrail price p).toEntryTerms = p.toEntryTerms := by
  unfold advanceTrail
  split
  · rfl
  split <;> rfl

theorem manage_does (marks : Marks) (symbol : String) :
    Does config now admits (Begun now) (manage config now marks symbol) (fun _ => Begun now) := by
  refine load_does fun state => ?_
  cases hget : state.positions.get? symbol with
  | none => exact moves_pre (quiet_does silent_pure (Today (date now))) fun _ hr => hr.1
  | some position =>
      have hheld : ∀ r, Begun now r ∧ r.state = state → Held now position.toEntryTerms (ledger r) := by
        rintro r ⟨hr, rfl⟩
        exact (held_of_get? hr hget).2
      dsimp only
      cases usablePrice config symbol (marks.get? symbol) with
      | none =>
          refine moves_pre (quiet_does (P := Today (date now)) ?_) fun _ hr => hr.1
          exact silent_bind (quiet_updatePosition fun _ => rfl) fun _ => silent_pure
      | some found =>
          obtain ⟨mark, price⟩ := found
          dsimp only
          refine moves_pre (p := fun r => Held now (observe now mark price position).toEntryTerms (ledger r))
            ?_ (fun r hr => by rw [observe_terms]; exact hheld r hr)
          refine moves_after_silent (quiet_updatePosition (observe_terms mark price)) fun _ => ?_
          cases triggeredExit (observe now mark price position) price with
          | none =>
              refine moves_pre (quiet_does (P := Today (date now)) ?_) fun _ hr => hr.1
              exact silent_bind (quiet_updatePosition (advanceTrail_terms price)) fun _ => silent_pure
          | some reason =>
              exact moves_returning (close_does _ mark reason)

theorem manageAll_does (marks : Marks) (symbols : List String) :
    Does config now admits (Begun now) (manageAll config now marks symbols) (fun _ => Begun now) := by
  induction symbols with
  | nil => exact quiet_does silent_pure _
  | cons symbol rest ih =>
      exact moves_bind (manage_does marks symbol) fun _ => moves_returning ih

end Trades

end Aetheris.PaperRefinement
