import Aetheris.OrderWrites

namespace Aetheris.Settlement

open Lib Money Clock Enums OrderRecords OrderMachine OrderStore OrderEngine OrderCalls OrderWrites RecordStore
open Reconcile hiding decide

variable {durable : Bool} {s : RecordStore durable} {orderId : String} {r : OrderRecord}

/-- The record holds the venue's answer in full. -/
structure Carries (r : OrderRecord) (view : VenueOrderView) : Prop where
  state : r.state = view.state
  filledQuantity : r.filledQuantity = view.filledQuantity
  averageFillPrice : r.averageFillPrice = view.averageFillPrice
  venueOrderId : ∀ venueId ∈ view.venueOrderId, r.venueOrderId = some venueId

instance (r : OrderRecord) (view : VenueOrderView) : Decidable (Carries r view) :=
  decidable_of_iff (r.state = view.state ∧ r.filledQuantity = view.filledQuantity ∧
      r.averageFillPrice = view.averageFillPrice ∧ ∀ venueId ∈ view.venueOrderId, r.venueOrderId = some venueId)
    ⟨fun ⟨a, b, c, d⟩ => ⟨a, b, c, d⟩, fun ⟨a, b, c, d⟩ => ⟨a, b, c, d⟩⟩

def Blocked (r : OrderRecord) (decision : ReconciliationDecision) : Prop :=
  decision.action ≠ .recordDiscrepancy ∧ decision.action ≠ .venueUnreachable ∧
    ∃ target, decision.targetState = some target ∧ target ≠ r.state ∧ ¬ canTransition r.state target

theorem update_not_illegal (r : OrderRecord) (s : RecordStore durable) (e : IllegalTransitionError) :
    OrderRepository.update r s ≠ .error (.illegalTransition e) := by
  change RecordStore.update r s ≠ _
  unfold RecordStore.update
  dsimp only
  split
  · simp
  split
  · simp
  · simp

theorem check_illegal {current target : OrderState} {s : RecordStore durable} (h : ¬ canTransition current target) :
    check current target orderId s = .error (.illegalTransition (illegalTransition current target orderId)) := by
  unfold check checkTransition
  rw [if_neg h]
  rfl

theorem check_of_canTransition {current target : OrderState} {s : RecordStore durable}
    (h : canTransition current target) : check current target orderId s = .ok ((), s) :=
  check_ok.mpr ⟨h, rfl⟩

theorem applyReconciliation_illegal_iff (hr : Loads s orderId r) (now : Timestamp) {decision : ReconciliationDecision} :
    (∃ e, applyReconciliation orderId decision now s = .error (.illegalTransition e)) ↔ Blocked r decision := by
  unfold applyReconciliation
  rw [held_of_loads _ hr]
  by_cases hrecord : decision.action = .recordDiscrepancy
  · rw [if_pos hrecord]
    exact iff_of_false (fun ⟨e, he⟩ => update_not_illegal _ s e he) (fun hb => hb.1 hrecord)
  rw [if_neg hrecord]
  by_cases hunreachable : decision.action = .venueUnreachable
  · rw [if_pos hunreachable]
    exact iff_of_false (fun ⟨e, he⟩ => update_not_illegal _ s e he) (fun hb => hb.2.1 hunreachable)
  rw [if_neg hunreachable]
  cases htarget : decision.targetState with
  | none =>
      refine iff_of_false (fun ⟨e, he⟩ => by cases he) ?_
      rintro ⟨_, _, target, ht, _⟩
      rw [htarget] at ht
      cases ht
  | some target =>
      dsimp only
      by_cases hsame : target = r.state
      · rw [if_pos hsame]
        refine iff_of_false (fun ⟨e, he⟩ => update_not_illegal _ s e he) ?_
        rintro ⟨_, _, target', ht, hne, _⟩
        rw [htarget] at ht
        cases ht
        exact hne hsame
      · rw [if_neg hsame]
        by_cases hc : canTransition r.state target
        · rw [Transaction.bind_of_ok (check_of_canTransition hc)]
          refine iff_of_false (fun ⟨e, he⟩ => update_not_illegal _ s e he) ?_
          rintro ⟨_, _, target', ht, _, hblocked⟩
          rw [htarget] at ht
          cases ht
          exact hblocked hc
        · rw [Transaction.bind_of_error (check_illegal hc)]
          exact iff_of_true ⟨_, rfl⟩ ⟨hrecord, hunreachable, target, htarget, hsame, hc⟩

theorem reconcile_illegal_iff (hr : Loads s orderId r) (now : Timestamp) {venueView : Option VenueOrderView}
    {venueReachable : Bool} :
    (∃ e, OrderEngine.reconcile orderId venueView venueReachable now s = .error (.illegalTransition e)) ↔
      Blocked r (Reconcile.decide r venueView venueReachable) := by
  rw [← applyReconciliation_illegal_iff hr now]
  unfold OrderEngine.reconcile
  rw [held_of_loads _ hr]
  cases ha : applyReconciliation orderId (Reconcile.decide r venueView venueReachable) now s with
  | ok p =>
      rw [Transaction.bind_of_ok ha]
      exact iff_of_false (fun ⟨e, he⟩ => nomatch he) (fun ⟨e, he⟩ => nomatch he)
  | error e =>
      rw [Transaction.bind_of_error ha]
      simp only [Except.error.injEq]

def absentState (r : OrderRecord) : OrderState := if r.reachedVenue then .unknown else .cancelled

/-- The record's state can take the answer: nobody answered, the answer
contradicts the record and is written down, or the state it names is the
record's own or one the machine can reach from there. -/
def Applicable (r : OrderRecord) : Option VenueOrderView → Bool → Prop
  | _, false => True
  | none, true => absentState r = r.state ∨ canTransition r.state (absentState r)
  | some view, true => Contradicts r view ∨ view.state = r.state ∨ canTransition r.state view.state

theorem blocked_iff_of_target {decision : ReconciliationDecision} {target : OrderState}
    (hrecord : decision.action ≠ .recordDiscrepancy) (hunreachable : decision.action ≠ .venueUnreachable)
    (htarget : decision.targetState = some target) :
    Blocked r decision ↔ ¬ (target = r.state ∨ canTransition r.state target) := by
  rw [not_or]
  constructor
  · rintro ⟨_, _, target', ht, hne, hc⟩
    rw [htarget] at ht
    cases ht
    exact ⟨hne, hc⟩
  · rintro ⟨hne, hc⟩
    exact ⟨hrecord, hunreachable, target, htarget, hne, hc⟩

theorem blocked_decide_iff (r : OrderRecord) (venueView : Option VenueOrderView) (venueReachable : Bool) :
    Blocked r (Reconcile.decide r venueView venueReachable) ↔ ¬ Applicable r venueView venueReachable := by
  cases venueReachable with
  | false => exact iff_of_false (fun hb => hb.2.1 rfl) (not_not.mpr trivial)
  | true =>
      cases venueView with
      | none =>
          rw [decide_none]
          by_cases hsent : r.reachedVenue
          · rw [if_pos hsent, Applicable, absentState, if_pos hsent]
            exact blocked_iff_of_target (by simp [remainUnknownDecision]) (by simp [remainUnknownDecision]) rfl
          · rw [if_neg hsent, Applicable, absentState, if_neg hsent]
            exact blocked_iff_of_target (by simp [neverSubmittedDecision]) (by simp [neverSubmittedDecision]) rfl
      | some view =>
          by_cases hcon : Contradicts r view
          · refine iff_of_false (fun hb => hb.1 (decide_view_of_contradicts hcon).1) ?_
            exact not_not.mpr (.inl hcon)
          · rw [decide_view_of_not_contradicts hcon, Applicable]
            refine (blocked_iff_of_target (by simp [adoptDecision]) (by simp [adoptDecision]) rfl).trans ?_
            simp [hcon]

theorem exists_applies {decision : ReconciliationDecision} (hinert : ¬ Inert decision)
    (hblocked : ¬ Blocked r decision) (now : Timestamp) : ∃ r', Applies decision now r r' := by
  by_cases hrecord : decision.action = .recordDiscrepancy
  · exact ⟨_, .disputed hrecord⟩
  by_cases hunreachable : decision.action = .venueUnreachable
  · exact ⟨_, .unanswered hunreachable⟩
  cases htarget : decision.targetState with
  | none => exact absurd ⟨hrecord, hunreachable, htarget⟩ hinert
  | some target =>
      by_cases hsame : target = r.state
      · exact ⟨_, .repeated hrecord hunreachable (by rw [htarget, hsame])⟩
      · by_cases hc : canTransition r.state target
        · exact ⟨_, .moved target hrecord hunreachable htarget hsame hc⟩
        · exact absurd ⟨hrecord, hunreachable, target, htarget, hsame, hc⟩ hblocked

theorem not_blocked_of_applies {decision : ReconciliationDecision} {now : Timestamp} {r' : OrderRecord}
    (h : Applies decision now r r') : ¬ Blocked r decision := by
  rintro ⟨hrecord, hunreachable, target, htarget, hne, hc⟩
  exact hc (h.legal hrecord hunreachable htarget hne)

/-- Reconciling never trips over the machine, and moves the record along its edges. -/
structure Agrees (s : RecordStore durable) (r : OrderRecord) (venueView : Option VenueOrderView)
    (venueReachable : Bool) (now : Timestamp) : Prop where
  never_illegal : ∀ e, OrderEngine.reconcile r.orderId venueView venueReachable now s ≠
    .error (.illegalTransition e)
  along_edges : ∀ p, OrderEngine.reconcile r.orderId venueView venueReachable now s = .ok p →
    p.1.1.state = r.state ∨ canTransition r.state p.1.1.state

theorem applies_along_edges {decision : ReconciliationDecision} {now : Timestamp} {r' : OrderRecord}
    (h : Applies decision now r r') : r'.state = r.state ∨ canTransition r.state r'.state := by
  cases h with
  | disputed | unanswered | repeated => exact .inl rfl
  | moved target _ _ _ _ hc => exact .inr hc

theorem reconcile_agrees_iff (s : RecordStore durable) (r : OrderRecord) (venueView : Option VenueOrderView)
    (venueReachable : Bool) (now : Timestamp) (hr : Loads s r.orderId r) :
    Agrees s r venueView venueReachable now ↔ Applicable r venueView venueReachable := by
  have hblocked := (reconcile_illegal_iff hr now).trans (blocked_decide_iff r venueView venueReachable)
  constructor
  · intro h
    by_contra hn
    obtain ⟨e, he⟩ := hblocked.mpr hn
    exact h.never_illegal e he
  · intro h
    refine ⟨fun e he => hblocked.mp ⟨e, he⟩ h, fun p hp => ?_⟩
    obtain ⟨r₁, r', hr₁, happly, _, rfl⟩ := reconcile_ok.mp hp
    cases hr.unique hr₁
    exact applies_along_edges happly

def acceptedRun : List Operation := exampleSubmission ++ [.applyVenueAck "order-1" "v1" .accepted 3]

theorem reconcile_agrees_iff_acceptedRun :
    ∃ r, (Transaction.run examplePerform empty acceptedRun).find? "order-1" = some r ∧
      (Agrees (Transaction.run examplePerform empty acceptedRun) r
        (some (exampleView .filled 1 wholeUnit_pos)) true 5 ↔
          Applicable r (some (exampleView .filled 1 wholeUnit_pos)) true) :=
  ⟨_, rfl, reconcile_agrees_iff _ _ _ _ _ ⟨rfl, rfl⟩⟩

/-- An unknown order found at the venue: it has no edge to where the venue says it is. -/
def lostRun : List Operation := exampleSubmission ++ [.markUnknown "order-1" "timeout" 3]

theorem lostRun_illegal :
    ∃ r e, (Transaction.run examplePerform empty lostRun).find? "order-1" = some r ∧
      OrderEngine.reconcile r.orderId (some (exampleView .filled 1 wholeUnit_pos)) true 5
        (Transaction.run examplePerform empty lostRun) = .error (.illegalTransition e) :=
  ⟨_, _, rfl, rfl⟩

theorem adopted_carries {view : VenueOrderView} (target : OrderState) (now : Timestamp) (ht : target = view.state) :
    Carries (withDecision r (adoptDecision r view) target now) view := by
  refine ⟨ht, rfl, rfl, fun venueId hv => ?_⟩
  simp [withDecision, adoptDecision, Option.mem_def.mp hv]

/-- A fifth of the order known here, half of it at the venue. -/
def partialRun : List Operation :=
  acceptedRun ++ [.applyFill "order-1" (exampleFill (1 / 5) fifthUnit_pos) 4]

end Aetheris.Settlement
