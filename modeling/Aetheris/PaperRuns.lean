import Aetheris.PaperRefinement

namespace Aetheris.PaperRuns

open Lib Mutation Relation Money Clock Enums Leverage RiskEngine OrderIdentity PaperRecords PaperGate PaperPricing
  PaperEngine PaperLedger PaperRefinement

/-- The calls of the engine that keep the account. -/
inductive Operation
  | submitOrder (request : SubmitOrderRequest) (now : Timestamp) (mark : MarkPrice)
      (filters : Option SymbolFilters) (leverage : LeverageDecision) (paperEnabled : Bool) (marks : Marks)
      (riskVerdictDetail : Option String) (checksPerformed : List String) (riskMaxLeverage : Option Decimal)
  | refuse (request : SubmitOrderRequest) (now : Timestamp) (code : RiskRejectionCode) (detail : String)
      (marks : Marks) (from_ : Provenance)
  | replay (clientOrderId : String) (now : Timestamp) (marks : Marks)
  | closePosition (symbol : String) (now : Timestamp) (mark : MarkPrice) (reason : PaperExitReason)
      (marks : Marks)
  | tick (now : Timestamp) (marks : Marks)
  | setEmergencyStop (engaged : Bool) (reason : String) (now : Timestamp)
  | snapshot (now : Timestamp) (marks : Marks)

def Operation.now : Operation → Timestamp
  | submitOrder _ now _ _ _ _ _ _ _ _ => now
  | refuse _ now _ _ _ _ => now
  | replay _ now _ => now
  | closePosition _ now _ _ _ => now
  | tick now _ => now
  | setEmergencyStop _ _ now => now
  | snapshot now _ => now

abbrev Operation.Answer : Operation → Type
  | submitOrder _ _ _ _ _ _ _ _ _ _ | refuse _ _ _ _ _ _ | closePosition _ _ _ _ _ => PaperOrderResult
  | replay _ _ _ => Option PaperOrderResult
  | tick _ _ => PaperAccount × List PaperTrade
  | setEmergencyStop _ _ _ | snapshot _ _ => PaperAccount

/-- The account as the call finds it once the day's session is stored. -/
def onDay (config : PaperEngineConfig) (now : Timestamp) (r : Repository) : Repository :=
  ((ensureSession config now).run r).2

section Calls

variable {α : Type} {config : PaperEngineConfig} {now : Timestamp} {admits : Ledger → EntryTerms → Prop}
  {r : Repository}

theorem replayed_does (existing : PaperOrder) (symbol detail : String) (marks : Marks) :
    Does config now admits (Begun now) (replayed config existing symbol detail now marks) (fun _ => Begun now) := by
  refine load_does fun state => ?_
  refine moves_bind (q := fun _ => Begun now) ?_ fun _ => ?_
  · exact moves_pre (quiet_does (silent_reportHeld _) (Today (date now))) fun _ hr => hr.1
  · exact moves_returning (buildAccount_does marks)

theorem replay_does (id : String) (marks : Marks) :
    Does config now admits (fun r => Keyed (ledger r)) (replay config id now marks) (fun _ _ => True) := by
  refine load_does fun state => ?_
  refine moves_pre (p := fun r => Keyed (ledger r)) ?_ fun _ hr => hr.1
  cases state.ordersByClientId.get? id with
  | none => exact moves_forget (quiet_does silent_pure Keyed)
  | some existing =>
      refine moves_forget (q := fun _ => Begun now) (moves_bind ensureSession_does fun _ => ?_)
      exact moves_returning (replayed_does existing _ _ marks)

theorem snapshot_does (marks : Marks) :
    Does config now admits (fun r => Keyed (ledger r)) (snapshot config now marks) (fun _ => Begun now) :=
  moves_bind ensureSession_does fun _ => buildAccount_does marks

theorem tick_does (marks : Marks) :
    Does config now admits (fun r => Keyed (ledger r)) (tick config now marks) (fun _ => Begun now) := by
  refine moves_bind ensureSession_does fun _ => load_does fun state => ?_
  refine moves_bind (q := fun _ => Begun now) ?_ fun closed => ?_
  · exact moves_pre (manageAll_does marks _) fun _ hr => hr.1
  refine moves_after_silent quiet_touch fun _ => ?_
  exact moves_returning (buildAccount_does marks)

theorem setEmergencyStop_does (engaged : Bool) (reason : String) :
    Does config now admits (fun r => Keyed (ledger r)) (setEmergencyStop config engaged reason now)
      (fun _ => Begun now) := by
  refine moves_bind ensureSession_does fun _ => ?_
  refine moves_after_silent (quiet_modifyState ?_) fun _ => ?_
  · exact fun _ => rfl
  refine moves_after_silent quiet_touch fun _ => ?_
  exact buildAccount_does _

variable [Runtime]

theorem refuse_does (request : SubmitOrderRequest) (code : RiskRejectionCode) (detail : String) (marks : Marks)
    (from_ : Provenance) :
    Does config now admits (fun r => Keyed (ledger r)) (refuse config request now code detail marks from_)
      (fun _ => Begun now) := by
  refine moves_bind ensureSession_does fun _ => ?_
  refine moves_after_silent (quiet_clientOrderIdOf request) fun _ => ?_
  exact reject_does _ _ _ _ marks _ _

theorem closePosition_does (symbol : String) (mark : MarkPrice) (reason : PaperExitReason) (marks : Marks) :
    Does config now admits (fun r => Keyed (ledger r)) (closePosition config symbol now mark reason marks)
      (fun _ => Begun now) := by
  refine moves_bind ensureSession_does fun _ => load_does fun state => ?_
  cases hget : state.positions.get? (Runtime.upper symbol) with
  | none =>
      refine moves_pre (p := Begun now) ?_ fun _ hr => hr.1
      refine moves_after_silent (quiet_generatedId _) fun _ => ?_
      exact reject_does _ _ _ _ _ _ _
  | some position =>
      refine moves_pre (p := fun r => Held now position.toEntryTerms (ledger r)) ?_ ?_
      · refine moves_after_silent (quiet_generatedId _) fun _ => ?_
        dsimp only
        split
        · exact moves_pre (reject_does _ _ _ _ _ _ _) fun _ hr => hr.1
        · refine moves_bind (close_does position mark reason) fun _ => ?_
          refine moves_after_silent quiet_nextSequence fun _ => ?_
          refine moves_after_silent (silent_building _ _) fun _ => ?_
          refine moves_after_silent (quiet_recordOrder _) fun _ => ?_
          refine moves_after_silent quiet_touch fun _ => ?_
          exact moves_returning (buildAccount_does _)
      · rintro r ⟨hr, rfl⟩
        exact (held_of_get? hr hget).2

/-- The client order id a submission goes under. -/
def submittedId (request : SubmitOrderRequest) (sequence : Nat) : String :=
  let next := sequence + 1
  match request.clientOrderId with
  | some id => if id = "" then s!"paper-{next}" else id
  | none => s!"paper-{next}"

/-- The entry a submission makes: it is no replay, and every check lets it through. -/
def entryOf (config : PaperEngineConfig) (r : Repository) (request : SubmitOrderRequest) (mark : MarkPrice)
    (filters : Option SymbolFilters) (leverage : LeverageDecision) (paperEnabled : Bool) : Option Entry :=
  match r.state.ordersByClientId.get? (submittedId request r.state.sequence) with
  | some _ => none
  | none =>
      (considerOrder config r.state request (Runtime.upper request.symbol) mark filters leverage paperEnabled).toOption

theorem considerOrder_of_entryOf {request : SubmitOrderRequest} {mark : MarkPrice} {filters : Option SymbolFilters}
    {leverage : LeverageDecision} {paperEnabled : Bool} {entry : Entry}
    (h : entry ∈ entryOf config r request mark filters leverage paperEnabled) :
    r.state.ordersByClientId.get? (submittedId request r.state.sequence) = none ∧
      considerOrder config r.state request (Runtime.upper request.symbol) mark filters leverage paperEnabled =
        .ok entry := by
  unfold entryOf at h
  split at h
  · cases h
  next hnew =>
    refine ⟨hnew, ?_⟩
    cases hdecision : considerOrder config r.state request (Runtime.upper request.symbol) mark filters leverage
        paperEnabled with
    | error e =>
        rw [hdecision] at h
        cases h
    | ok e =>
        rw [hdecision] at h
        exact congrArg Except.ok (Option.some.inj h)

def withSequence (n : Nat) (r : Repository) : Repository := { r with state := { r.state with sequence := n } }

omit [Runtime] in
theorem clientOrderIdOf_does (request : SubmitOrderRequest) (r : Repository) :
    Does config now admits (fun s => s = r) (clientOrderIdOf request)
      (fun id s => id = submittedId request r.state.sequence ∧ ∃ n, s = withSequence n r) := by
  rintro s rfl
  have hgenerated : (generatedId "paper-").run s = (.ok (submittedId { request with clientOrderId := none }
      s.state.sequence), withSequence (s.state.sequence + 1) s) := rfl
  unfold clientOrderIdOf submittedId
  cases request.clientOrderId with
  | none =>
      dsimp only
      rw [hgenerated]
      refine ⟨.refl, fun a ha => ?_⟩
      cases ha
      exact ⟨rfl, _, rfl⟩
  | some id =>
      dsimp only
      split
      · rw [hgenerated]
        refine ⟨.refl, fun a ha => ?_⟩
        cases ha
        exact ⟨rfl, _, rfl⟩
      · refine ⟨.refl, fun a ha => ?_⟩
        cases ha
        exact ⟨rfl, s.state.sequence, rfl⟩

omit [Runtime] in
theorem ensureSession_onDay : Does config now admits (fun s => s = r ∧ Keyed (ledger s)) (ensureSession config now)
    (fun _ s => s = onDay config now r ∧ Begun now s) := by
  rintro s ⟨rfl, hkeyed⟩
  have hdoes : Does config now admits (fun s => Keyed (ledger s)) (ensureSession config now) (fun _ => Begun now) :=
    ensureSession_does
  obtain ⟨hmoves, hbegun⟩ := hdoes s hkeyed
  exact ⟨hmoves, fun a ha => ⟨rfl, hbegun a ha⟩⟩

omit [Runtime] in
theorem conclude_does (request : SubmitOrderRequest) (symbol id : String) (leverage : LeverageDecision)
    (age : Option Decimal) (marks : Marks) (detail : Option String) (from_ : Provenance)
    (decision : Except Decline Entry) (hbegun : Begun now r)
    (hready : ∀ entry, decision = .ok entry → Ready config request symbol entry now admits (ledger r)) :
    Does config now admits (fun s => s = r)
      (conclude config request symbol id now leverage age marks detail from_ decision) (fun _ => Begun now) := by
  match decision with
  | .error (.refused refusal) => exact moves_pre (reject_does _ _ _ _ _ _ _) fun s hs => hs ▸ hbegun
  | .error (.ruled refusal) => exact moves_pre (reject_does _ _ _ _ _ _ _) fun s hs => hs ▸ hbegun
  | .error (.raised error) => exact moves_throw
  | .ok entry => exact moves_pre (openPosition_does _ _ _ _ _ _ _ _ _) fun s hs => hs ▸ hready entry rfl

omit [Runtime] in
theorem ready_of_considered {request : SubmitOrderRequest} {symbol : String} {leverage : LeverageDecision}
    {entry : Entry} (hbegun : Begun now r) (h : Considered config r.state request symbol leverage entry)
    (hadmits : ∀ orderId positionId, admits (ledger r)
      (openedPosition config request symbol entry now orderId positionId).toEntryTerms) :
    Ready config request symbol entry now admits (ledger r) := by
  refine ⟨hbegun, ?_, ?_, hadmits⟩
  · intro s hs
    obtain ⟨ms, hms, rfl⟩ := Option.mem_map.mp hs
    exact h.admitted.unlocked ms hms
  · change symbol ∉ (r.state.positions.map _).keys
    rw [Dict.keys_of_map]
    exact h.admitted.free

theorem submitOrder_does (request : SubmitOrderRequest) (mark : MarkPrice) (filters : Option SymbolFilters)
    (leverage : LeverageDecision) (paperEnabled : Bool) (marks : Marks) (detail : Option String)
    (checks : List String) (riskMax : Option Decimal)
    (hadmits : ∀ entry ∈ entryOf config (onDay config now r) request mark filters leverage paperEnabled,
      ∀ orderId positionId, admits (ledger (onDay config now r)) (openedPosition config request
        (Runtime.upper request.symbol) entry now orderId positionId).toEntryTerms) :
    Does config now admits (fun s => s = r ∧ Keyed (ledger s))
      (submitOrder config request now mark filters leverage paperEnabled marks detail checks riskMax)
      (fun _ => Begun now) := by
  refine moves_bind ensureSession_onDay fun _ => ?_
  rintro s ⟨rfl, hbegun⟩
  refine (moves_bind (clientOrderIdOf_does request _) fun id => load_does fun state => ?_ :
    Does config now admits (fun s => s = onDay config now r) _ _) _ rfl
  rintro s ⟨⟨rfl, n, rfl⟩, rfl⟩
  have hbegun : Begun now (withSequence n (onDay config now r)) := hbegun
  cases hknown : (withSequence n (onDay config now r)).state.ordersByClientId.get?
      (submittedId request (onDay config now r).state.sequence) with
  | some existing => exact replayed_does existing _ _ _ _ hbegun
  | none =>
      refine conclude_does request _ _ leverage _ _ detail _ _ hbegun ?_ _ rfl
      intro entry hentry
      refine ready_of_considered hbegun (considerOrder_ok hentry) (hadmits entry ?_)
      have hconsidered : considerOrder config (onDay config now r).state request (Runtime.upper request.symbol)
          mark filters leverage paperEnabled = .ok entry := hentry
      have hnew : (onDay config now r).state.ordersByClientId.get?
          (submittedId request (onDay config now r).state.sequence) = none := hknown
      rw [entryOf, hnew, hconsidered]
      rfl

end Calls

theorem keyed_move {config : PaperEngineConfig} {today : Int} {admits : Ledger → EntryTerms → Prop} {l m : Ledger}
    (hm : Move config today admits l m) (h : Keyed l) : Keyed m := by
  cases hm with
  | start _ => exact h
  | enter _ _ _ hfree _ _ => exact keyed_enter h hfree
  | leave _ hday _ _ _ _ _ => exact (today_leave h hday).1

section Runs

variable [Runtime]

def Operation.answer (config : PaperEngineConfig) : (op : Operation) → PaperM op.Answer
  | submitOrder request now mark filters leverage paperEnabled marks detail checks riskMax =>
      PaperEngine.submitOrder config request now mark filters leverage paperEnabled marks detail checks riskMax
  | refuse request now code detail marks from_ => PaperEngine.refuse config request now code detail marks from_
  | replay clientOrderId now marks => PaperEngine.replay config clientOrderId now marks
  | closePosition symbol now mark reason marks => PaperEngine.closePosition config symbol now mark reason marks
  | tick now marks => PaperEngine.tick config now marks
  | setEmergencyStop engaged reason now => PaperEngine.setEmergencyStop config engaged reason now
  | snapshot now marks => PaperEngine.snapshot config now marks

/-- The account a call leaves, whether it returned or raised. -/
def after (config : PaperEngineConfig) (r : Repository) (op : Operation) : Repository := ((op.answer config).run r).2

def run (config : PaperEngineConfig) (r : Repository) (ops : List Operation) : Repository :=
  ops.foldl (after config) r

/-- A fresh account, before its first call. -/
def opening (startingBalance : Decimal) (now : Timestamp) (durability : Durability) : Repository where
  state := fresh startingBalance now
  durability := durability

def Operation.Admitted (admits : Ledger → EntryTerms → Prop) (config : PaperEngineConfig) (r : Repository) :
    Operation → Prop
  | submitOrder request now mark filters leverage paperEnabled _ _ _ _ =>
      ∀ entry ∈ entryOf config (onDay config now r) request mark filters leverage paperEnabled,
        ∀ orderId positionId, admits (ledger (onDay config now r)) (openedPosition config request
          (Runtime.upper request.symbol) entry now orderId positionId).toEntryTerms
  | _ => True

variable {config : PaperEngineConfig} {admits : Ledger → EntryTerms → Prop} {r : Repository} {op : Operation}

/-- Whatever a call does to the account is made of the moves of its day. -/
theorem after_moves (hkeyed : Keyed (ledger r)) (h : op.Admitted admits config r) :
    ReflTransGen (Move config (date op.now) admits) (ledger r) (ledger (after config r op)) := by
  cases op with
  | submitOrder request now mark filters leverage paperEnabled marks detail checks riskMax =>
      exact (submitOrder_does request mark filters leverage paperEnabled marks detail checks riskMax h r
        ⟨rfl, hkeyed⟩).1
  | refuse request now code detail marks from_ => exact (refuse_does request code detail marks from_ r hkeyed).1
  | replay id now marks => exact (replay_does id marks r hkeyed).1
  | closePosition symbol now mark reason marks => exact (closePosition_does symbol mark reason marks r hkeyed).1
  | tick now marks => exact (tick_does marks r hkeyed).1
  | setEmergencyStop engaged reason now => exact (setEmergencyStop_does engaged reason r hkeyed).1
  | snapshot now marks => exact (snapshot_does marks r hkeyed).1

theorem admitted_unrestricted : op.Admitted (fun _ _ => True) config r := by
  cases op <;> simp [Operation.Admitted]

/-- What every move of the day preserves, a call of the day preserves. -/
theorem after_preserves {I : Ledger → Prop}
    (hI : ∀ l m, Move config (date op.now) (fun _ _ => True) l m → I l → I m) (hkeyed : Keyed (ledger r))
    (h : I (ledger r)) : I (ledger (after config r op)) :=
  reflTransGen_invariant hI (after_moves hkeyed admitted_unrestricted) h

theorem keyed_after (hkeyed : Keyed (ledger r)) : Keyed (ledger (after config r op)) :=
  after_preserves (fun _ _ hm => keyed_move hm) hkeyed hkeyed

/-- What every admitted move preserves, every run whose submissions are admitted preserves. -/
theorem run_invariant {I : Ledger → Prop} {ops : List Operation}
    (hI : ∀ today l m, Move config today admits l m → I l → I m)
    (ha : Along (after config) (fun r op => op.Admitted admits config r) r ops)
    (hr : Keyed (ledger r) ∧ I (ledger r)) :
    Keyed (ledger (run config r ops)) ∧ I (ledger (run config r ops)) := by
  refine foldl_invariant (I := fun r => Keyed (ledger r) ∧ I (ledger r)) ?_ ha hr
  rintro r op ⟨hkeyed, hi⟩ hop
  exact ⟨keyed_after hkeyed, reflTransGen_invariant (hI _) (after_moves hkeyed hop) hi⟩

theorem along_unrestricted (r : Repository) (ops : List Operation) :
    Along (after config) (fun r op => op.Admitted (fun _ _ => True) config r) r ops :=
  along_of_forall (fun _ _ _ => admitted_unrestricted) r

end Runs

end Aetheris.PaperRuns
