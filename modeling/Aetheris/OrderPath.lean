import Aetheris.OrderHistory

namespace Aetheris.OrderPath

open Lib Clock Enums OrderRecords OrderMachine OrderStore OrderEngine OrderCalls OrderWrites OrderHistory RecordStore
open OrderIdentity Transaction

/-- The same state, or the next one by an edge of the machine. -/
def Moves (r r' : OrderRecord) : Prop := r'.state = r.state ∨ canTransition r.state r'.state

def Created (r : OrderRecord) : Prop := r.state = .created

theorem applies_moves {decision : ReconciliationDecision} {now : Timestamp} {r r' : OrderRecord}
    (h : Applies decision now r r') : Moves r r' := by
  cases h with
  | disputed | unanswered | repeated => exact .inl rfl
  | moved _ _ _ _ _ hc => exact .inr hc

theorem write_moves {op : Operation} {r r' : OrderRecord} (h : Write op r r') : Moves r r' := by
  cases h with
  | overfilled | damaged => exact .inl rfl
  | validating hc | riskRejected hc | cancelled _ hc | submitting hc | acknowledged hc | unknown hc
  | filled _ hc | attempted hc | resolved _ hc | interrupted _ hc => exact .inr hc
  | reopened hs => exact .inr (by rw [hs]; rfl)
  | reconciled happly | applied happly => exact applies_moves happly

variable {durable : Bool} {s t : RecordStore durable}

def Paths (s : RecordStore durable) : Prop := ∀ orderId, Walk Moves Created (s.versions orderId)

theorem paths_empty : Paths (empty : RecordStore durable) := fun _ => .nil

theorem Paths.put {r : OrderRecord} (h : Paths s) (hnew : s.find? r.orderId = none → Created r)
    (hstep : ∀ b, s.find? r.orderId = some b → Moves b r) : Paths (s.put r) :=
  fun orderId => VersionedTable.walk_put h hnew hstep orderId

theorem writes_paths [Runtime] {op : Operation} (h : Writes op s t) (hfresh : Fresh s op) (hs : Paths s) :
    Paths t := by
  induction h with
  | done => exact hs
  | built hb =>
      refine hs.put (fun _ => rfl) ?_
      intro b hf
      cases (hfresh _ hb).symm.trans hf
  | @written s t r r' hr hw _ ih =>
      have hfind : s.find? r'.orderId = some r := by rw [hw.orderId, hr]
      refine ih ?_ (hs.put ?_ ?_)
      · intro built hbuild
        cases hw <;> cases hbuild
      · intro hnone
        cases hfind.symm.trans hnone
      · intro b hb
        cases hfind.symm.trans hb
        exact write_moves hw

/-- Past the submission, in every state but the two that end an order that may not have left. -/
def sentState : OrderState → Bool
  | .submitted | .accepted | .partiallyFilled | .filled | .expired | .cancelRequested | .unknown
  | .reconciling => true
  | .created | .validating | .cancelled | .rejected => false

def Stamped (r : OrderRecord) : Prop := sentState r.state → r.submittedAt.isSome

/-- Acknowledgements carry states a venue can report, and nobody hands over a
decision that an order be SUBMITTED. -/
def fromVenue : Operation → Bool
  | .applyVenueAck _ _ state _ => state ∉ [OrderState.created, .validating, .submitted]
  | .applyReconciliation _ decision _ => decision.targetState ≠ some .submitted
  | _ => true

theorem sentState_of_canTransition {current target : OrderState} (hc : canTransition current target)
    (ht : sentState target) (hne : target ≠ .submitted) : sentState current := by
  cases current <;> cases target <;> first | rfl | (cases hc; done) | (cases ht; done) | exact absurd rfl hne

theorem Stamped.of_eq {r r' : OrderRecord} (h : Stamped r) (hs : r'.state = r.state)
    (hv : r'.submittedAt = r.submittedAt) : Stamped r' := by
  intro hr
  rw [hv]
  exact h (by rw [← hs]; exact hr)

theorem Stamped.move {r r' : OrderRecord} (h : Stamped r) (hv : r'.submittedAt = r.submittedAt)
    (hc : canTransition r.state r'.state) (hne : r'.state ≠ .submitted) : Stamped r' := by
  intro hr
  rw [hv]
  exact h (sentState_of_canTransition hc hr hne)

theorem decide_targetState_ne (r : OrderRecord) (venueView : Option VenueOrderView) (venueReachable : Bool) :
    (Reconcile.decide r venueView venueReachable).targetState ≠ some .submitted := by
  intro h
  have hresolvable := Reconcile.decide_targetState h
  cases hresolvable

theorem applies_stamped {decision : ReconciliationDecision} {now : Timestamp} {r r' : OrderRecord}
    (h : Applies decision now r r') (hd : decision.targetState ≠ some .submitted) (hr : Stamped r) :
    Stamped r' := by
  cases h with
  | disputed | unanswered | repeated => exact hr.of_eq rfl rfl
  | moved target _ _ htarget _ hc =>
      refine hr.move rfl hc ?_
      rintro rfl
      exact hd htarget

theorem write_stamped {op : Operation} {r r' : OrderRecord} (h : Write op r r') (hr : Stamped r)
    (hv : fromVenue op) : Stamped r' := by
  cases h with
  | overfilled | damaged => exact hr.of_eq rfl rfl
  | submitting => exact fun _ => rfl
  | validating | riskRejected | cancelled => exact fun hs => nomatch hs
  | unknown hc | attempted hc | interrupted _ hc => exact hr.move rfl hc (fun h => nomatch h)
  | reopened hs => exact hr.move rfl (by rw [hs]; rfl) (fun h => nomatch h)
  | acknowledged hc =>
      refine hr.move rfl hc ?_
      rintro rfl
      cases hv
  | @filled r fill now _ hc =>
      refine hr.move rfl hc ?_
      change fillTarget r (r.filledQuantity + fill.quantity) ≠ .submitted
      rw [fillTarget]
      split <;> exact fun h => nomatch h
  | resolved hs hc =>
      refine hr.move rfl hc ?_
      rintro rfl
      rw [hs] at hc
      cases hc
  | reconciled happly => exact applies_stamped happly (decide_targetState_ne _ _ _) hr
  | applied happly => exact applies_stamped happly (by simpa [fromVenue] using hv) hr

/-- What the machine promises of the versions an order is stored in. -/
structure FollowsMachine (versions : List OrderRecord) : Prop where
  walk : Walk Moves Created versions
  unknown : versions.IsChain (fun r r' => r.state = .unknown → r'.state ≠ .unknown → r'.state = .reconciling)
  validated : ∀ before r after, versions = before ++ r :: after → r.state = .submitted →
    ∃ b ∈ before, b.state = .validating

theorem followsMachine {versions : List OrderRecord} (h : Walk Moves Created versions) :
    FollowsMachine versions := by
  refine ⟨h, h.chain.imp ?_, ?_⟩
  · rintro r r' (he | hc) hunknown hne
    · exact absurd (he.trans hunknown) hne
    · rw [hunknown] at hc
      exact (canTransition_unknown_iff r'.state).mp hc
  · rintro before r after rfl hr
    refine h.passes (fun b => b.state = .validating) (fun b => b.state = .submitted) ?_ ?_ hr
    · intro a ha he
      cases ha.symm.trans he
    · rintro a b (he | hc) hb
      · exact .inl (he.symm.trans hb)
      · rw [hb] at hc
        exact .inr ((canTransition_submitted_iff a.state).mp hc)

section

variable [Runtime]

theorem run_paths {ops : List Operation} (h : Along perform Fresh s ops) (hs : Paths s) :
    Paths (run perform s ops) :=
  run_invariant (fun _ _ _ hI hfresh hp => writes_paths (perform_writes hp) hfresh hI) h hs

theorem run_stamped {ops : List Operation} (hops : ∀ op ∈ ops, fromVenue op) (hs : ∀ r ∈ s.stored, Stamped r) :
    ∀ r ∈ (run perform s ops).stored, Stamped r := by
  refine run_stored (G := fun op _ => fromVenue op) ?_ ?_ ?_ ?_ hs
  · exact fun _ _ hr => nomatch hr
  · intro op r hop
    cases op <;> first | rfl | cases hop
  · exact fun hw hr hv => ⟨write_stamped hw hr hv, hv⟩
  · exact along_of_forall (fun op hop _ _ _ => hops op hop) s

/-- What a run stores of an order begins at CREATED and goes along the machine,
and a state past the submission carries its stamp. -/
theorem stored_states_follow_machine (ops : List Operation)
    (h : Along perform Fresh (empty : RecordStore durable) ops) :
    (∀ orderId, FollowsMachine ((run perform (empty : RecordStore durable) ops).versions orderId)) ∧
      ((∀ op ∈ ops, fromVenue op) →
        ∀ r ∈ (run perform (empty : RecordStore durable) ops).stored, sentState r.state → r.submittedAt.isSome) := by
  constructor
  · exact fun orderId => followsMachine (run_paths h paths_empty orderId)
  · exact fun hops => run_stamped hops fun r hr => absurd hr List.not_mem_nil

end

theorem stored_states_follow_machine_completedRun :
    (∀ orderId, FollowsMachine ((run examplePerform empty completedRun).versions orderId)) ∧
      ((∀ op ∈ completedRun, fromVenue op) →
        ∀ r ∈ (run examplePerform empty completedRun).stored, sentState r.state → r.submittedAt.isSome) :=
  @stored_states_follow_machine true referenceRuntime completedRun (by decide)

/-- A decision that `decide` never makes. -/
def submittedDecision : ReconciliationDecision where
  action := .adoptVenueState
  targetState := some .submitted
  detail := "submitted elsewhere"

def decidedSubmissionRun : List Operation :=
  [.create "order-1" exampleIntent, .markValidating "order-1" 1,
    .applyReconciliation "order-1" submittedDecision 2]

theorem decidedSubmissionRun_unstamped :
    Along examplePerform Fresh empty decidedSubmissionRun ∧
      ∃ r ∈ (run examplePerform empty decidedSubmissionRun).stored, r.state = .submitted ∧ r.submittedAt = none := by
  decide +kernel

end Aetheris.OrderPath
