import Aetheris.PaperOutcomes

namespace Aetheris.PaperViews

open Lib Mutation Money Clock Enums Leverage RiskEngine OrderIdentity PaperRecords PaperGate PaperPricing PaperEngine
  PaperLedger PaperRefinement PaperRuns PaperOutcomes

/-- What is shown of an account shows nothing of its bookkeeping: the day, the
numbers, the log of orders, the brake, and when it was last written. -/
structure Blind {ω : Type} (view : Repository → ω) : Prop where
  session : ∀ r s, view { r with state := { r.state with session := s } } = view r
  begun : ∀ config now r, view (beginSession config now r) = view r
  sequence : ∀ r n, view { r with state := { r.state with sequence := n } } = view r
  logged : ∀ r log index,
    view { r with state := { r.state with orderLog := log, ordersByClientId := index } } = view r
  stopped : ∀ r engaged reason,
    view { r with state := { r.state with emergencyStopped := engaged, emergencyReason := reason } } = view r
  touched : ∀ r now, view { r with state := { r.state with updatedAt := now } } = view r

variable {ω α : Type} {view : Repository → ω} {config : PaperEngineConfig} {now : Timestamp} {marks : Marks}

/-- What is shown of an account shows nothing of its day, its numbers and its
brake, nor of when it was last written. -/
structure Undated {ω : Type} (view : Repository → ω) : Prop where
  session : ∀ r s, view { r with state := { r.state with session := s } } = view r
  begun : ∀ config now r, view (beginSession config now r) = view r
  sequence : ∀ r n, view { r with state := { r.state with sequence := n } } = view r
  stopped : ∀ r engaged reason,
    view { r with state := { r.state with emergencyStopped := engaged, emergencyReason := reason } } = view r
  touched : ∀ r now, view { r with state := { r.state with updatedAt := now } } = view r

theorem Blind.undated (h : Blind view) : Undated view := ⟨h.session, h.begun, h.sequence, h.stopped, h.touched⟩

section Undated

variable (h : Undated view)

include h

theorem silent_touch : Silent view (touch now) := silent_modify fun r => h.touched r now

theorem silent_onSession (f : MutableSession → MutableSession) : Silent view (onSession f) :=
  silent_modify fun r => h.session r _

theorem silent_nextSequence : Silent view nextSequence :=
  silent_bind (silent_modify fun r => h.sequence r _) fun _ => silent_bind silent_load fun _ => silent_pure

theorem view_onDay (r : Repository) : view (onDay config now r) = view r := by
  rw [onDay, ensureSession_run]
  cases r.state.session with
  | none => exact h.begun config now r
  | some s =>
      dsimp only
      split
      · rfl
      · exact h.begun config now r

theorem silent_ensureSession : Silent view (ensureSession config now) := view_onDay h

theorem silent_generatedId (stem : String) : Silent view (generatedId stem) :=
  silent_bind (silent_nextSequence h) fun _ => silent_pure

theorem silent_clientOrderIdOf (request : SubmitOrderRequest) : Silent view (clientOrderIdOf request) := by
  unfold clientOrderIdOf
  cases request.clientOrderId with
  | none => exact silent_generatedId h _
  | some id =>
      dsimp only
      split
      · exact silent_generatedId h _
      · exact silent_pure

theorem silent_buildAccount : Silent view (buildAccount config now marks) := by
  refine silent_bind silent_load fun state => silent_bind (silent_reportPositions _) fun positions => ?_
  exact silent_bind (silent_ensureSession h) fun session => silent_bind silent_get fun _ => silent_pure

theorem silent_replayed (existing : PaperOrder) (symbol detail : String) :
    Silent view (replayed config existing symbol detail now marks) := by
  refine silent_bind silent_load fun state => silent_bind (silent_reportHeld _) fun _ => ?_
  exact silent_bind (silent_buildAccount h) fun _ => silent_pure

theorem silent_replay (id : String) : Silent view (PaperEngine.replay config id now marks) := by
  refine silent_bind silent_load fun state => ?_
  cases state.ordersByClientId.get? id with
  | none => exact silent_pure
  | some existing =>
      refine silent_bind (silent_ensureSession h) fun _ => ?_
      rw [map_eq_pure_bind]
      exact silent_bind (silent_replayed h _ _ _) fun _ => silent_pure

theorem silent_snapshot : Silent view (PaperEngine.snapshot config now marks) :=
  silent_bind (silent_ensureSession h) fun _ => silent_buildAccount h

theorem silent_setEmergencyStop (engaged : Bool) (reason : String) :
    Silent view (PaperEngine.setEmergencyStop config engaged reason now) := by
  refine silent_bind (silent_ensureSession h) fun _ => ?_
  refine silent_bind (silent_modify fun r => h.stopped r _ _) fun _ => ?_
  exact silent_bind (silent_touch h) fun _ => silent_buildAccount h

end Undated

section Blind

variable (h : Blind view)

include h

theorem silent_recordOrder (order : PaperOrder) : Silent view (recordOrder config order) :=
  silent_bind (silent_modify fun r => h.logged r _ _) fun _ => silent_modify fun r => h.logged r _ _

theorem silent_reject (symbol : String) (request : SubmitOrderRequest) (id : String) (refusal : RiskRefusal)
    (reduceOnly : Bool) (from_ : Provenance) :
    Silent view (reject config symbol request id refusal now marks reduceOnly from_) := by
  refine silent_bind (silent_ensureSession h.undated) fun _ => ?_
  refine silent_bind (silent_onSession h.undated _) fun _ => ?_
  refine silent_bind (silent_nextSequence h.undated) fun _ => ?_
  refine silent_bind (silent_building _ _) fun _ => ?_
  refine silent_bind (silent_recordOrder h _) fun _ => ?_
  refine silent_bind (silent_touch h.undated) fun _ => ?_
  exact silent_bind (silent_buildAccount h.undated) fun _ => silent_pure

theorem silent_refuse [Runtime] (request : SubmitOrderRequest) (code : RiskRejectionCode) (detail : String)
    (from_ : Provenance) : Silent view (PaperEngine.refuse config request now code detail marks from_) := by
  refine silent_bind (silent_ensureSession h.undated) fun _ => ?_
  exact silent_bind (silent_clientOrderIdOf h.undated _) fun _ => silent_reject h _ _ _ _ _ _

variable (config now marks) in
/-- Of an entry, the view shows what was booked; what follows only records and reports it. -/
theorem openPosition_view (request : SubmitOrderRequest) (symbol id : String) (entry : Entry)
    (leverage : LeverageDecision) (age : Option Decimal) (detail : Option String) (from_ : Provenance)
    (r : Repository) :
    ∃ orderId positionId n, view ((openPosition config request symbol id entry now leverage age marks detail
        from_).run r).2 =
      view (bookEntry (openedPosition config request symbol entry now orderId positionId)
        (withSequence n (onDay config now r))) := by
  obtain ⟨session, hsession, _⟩ := ensureSession_ok config now r
  rw [openPosition, run_bind_ok hsession, run_bind_ok nextSequence_run, run_bind_ok nextSequence_run]
  dsimp only
  rw [run_bind_ok modify_run]
  refine ⟨_, _, _, silent_bind (silent_nextSequence h.undated) (fun _ => ?_) _⟩
  refine silent_bind (silent_building _ _) fun _ => silent_bind (silent_building _ _) fun _ => ?_
  refine silent_bind (silent_recordOrder h _) fun _ => silent_bind (silent_touch h.undated) fun _ => ?_
  refine silent_bind (silent_reportPosition _) fun _ => ?_
  exact silent_bind (silent_buildAccount h.undated) fun _ => silent_pure

end Blind

end Aetheris.PaperViews
