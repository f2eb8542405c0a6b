import Aetheris.OrderRecords
import Aetheris.OrderMachine

namespace Aetheris.Reconcile

open Money Clock Enums OrderRecords OrderMachine

def unreachableDecision (record : OrderRecord) : ReconciliationDecision :=
  let client := record.clientOrderId
  { action := .venueUnreachable
    detail := s!"The venue could not be reached to ask about {client}. " ++
      "The order stays where it is: an unanswered question is not an answer, " ++
      "and entries remain blocked while it is open." }

def neverSubmittedDecision (record : OrderRecord) : ReconciliationDecision :=
  let client := record.clientOrderId
  { action := .resolveNeverSubmitted
    targetState := some .cancelled
    detail := s!"{client} was never submitted -- the record has no " ++
      "submission timestamp -- and the venue has no such order. Absence is " ++
      "proof here, so it is settled locally." }

def remainUnknownDecision (record : OrderRecord) : ReconciliationDecision :=
  let client := record.clientOrderId
  let submitted := (record.submittedAt.map isoformat).getD "unknown"
  { action := .remainUnknown
    targetState := some .unknown
    detail := s!"{client} was submitted at {submitted} " ++
      "and the venue reports no such order. That is not proof it never landed: " ++
      "the query may have raced the venue's bookkeeping. The order stays " ++
      "UNKNOWN and entries stay blocked until a human or a later answer " ++
      "settles it." }

def settledDiscrepancy (record : OrderRecord) (view : VenueOrderView) : ReconciliationDecision :=
  let client := record.clientOrderId
  let here := record.state.value
  let venue := view.state.value
  let observed := isoformat view.observedAt
  { action := .recordDiscrepancy
    detail := s!"{client} is already {here} here while the " ++
      s!"venue reports {venue}. A settled order is not reopened: " ++
      "the disagreement is recorded as evidence rather than applied over the top " ++
      "of it."
    discrepancy := some s!"local={here} venue={venue} observed_at={observed}" }

def shrinkingDiscrepancy (record : OrderRecord) (view : VenueOrderView) : ReconciliationDecision :=
  let client := record.clientOrderId
  let here := str record.filledQuantity
  let venue := str view.filledQuantity
  { action := .recordDiscrepancy
    detail := s!"The venue reports {venue} filled for " ++
      s!"{client} while {here} is already " ++
      "recorded. Fills do not go backwards, so this is recorded rather than " ++
      "applied -- a quantity that shrinks is a bug somewhere, and overwriting " ++
      "it would hide which."
    discrepancy := some s!"filled local={here} venue={venue}" }

def overfillDiscrepancy (record : OrderRecord) (view : VenueOrderView) : ReconciliationDecision :=
  let client := record.clientOrderId
  let ordered := str record.intent.quantity
  let venue := str view.filledQuantity
  { action := .recordDiscrepancy
    detail := s!"The venue reports {venue} filled for " ++
      s!"{client}, more than the {ordered} " ++
      "ordered. Recorded rather than applied."
    discrepancy := some s!"overfill ordered={ordered} venue={venue}" }

def unresolvableDiscrepancy (record : OrderRecord) (view : VenueOrderView) : ReconciliationDecision :=
  let client := record.clientOrderId
  let venue := view.state.value
  { action := .recordDiscrepancy
    detail := s!"The venue reports {venue} for " ++
      s!"{client}, which reconciliation cannot conclude. The " ++
      "order stays as it is and the answer is recorded."
    discrepancy := some s!"unresolvable venue state {venue}" }

def adoptDecision (record : OrderRecord) (view : VenueOrderView) : ReconciliationDecision :=
  let client := record.clientOrderId
  let venue := view.state.value
  let filled := str view.filledQuantity
  { action := .adoptVenueState
    targetState := some view.state
    detail := s!"The venue reports {client} as {venue} with " ++
      s!"{filled} filled. The venue is the authority on an order " ++
      "it holds, so its answer is adopted."
    venueOrderId := view.venueOrderId
    filledQuantity := some view.filledQuantity
    averageFillPrice := view.averageFillPrice }

def decide (record : OrderRecord) (venueView : Option VenueOrderView) (venueReachable : Bool) :
    ReconciliationDecision :=
  if !venueReachable then unreachableDecision record
  else match venueView with
    | none =>
        -- absence is proof only for an order that never left
        if !record.reachedVenue then neverSubmittedDecision record else remainUnknownDecision record
    | some view =>
        if record.isTerminal && view.state ≠ record.state then settledDiscrepancy record view
        else if view.filledQuantity < record.filledQuantity then shrinkingDiscrepancy record view
        else if record.intent.quantity < view.filledQuantity then overfillDiscrepancy record view
        else if !resolvableFromReconciling view.state then unresolvableDiscrepancy record view
        else adoptDecision record view

def needsReconciliation (record : OrderRecord) : Bool := !record.isTerminal

def blockingOrders (records : List OrderRecord) : List OrderRecord :=
  records.filter OrderRecord.isUnreconciled

def summarise (records : List OrderRecord) : String :=
  let blocking := blockingOrders records
  if blocking.isEmpty then "No orders are awaiting reconciliation."
  else
    let count := blocking.length
    let names := ", ".intercalate ((blocking.take 3).map OrderRecord.clientOrderId)
    let rest := count - 3
    let more := if 3 < count then s!" (+{rest} more)" else ""
    s!"{count} order(s) awaiting reconciliation: {names}{more}. " ++
    "There may be a position at the venue that this system cannot see, so no new " ++
    "entry is permitted until that is settled."

/-- The venue's answer contradicts the record, so it is written down and not applied. -/
def Contradicts (record : OrderRecord) (view : VenueOrderView) : Prop :=
  record.isTerminal ∧ view.state ≠ record.state ∨ view.filledQuantity < record.filledQuantity ∨
    record.intent.quantity < view.filledQuantity ∨ ¬ resolvableFromReconciling view.state

instance (record : OrderRecord) (view : VenueOrderView) : Decidable (Contradicts record view) :=
  inferInstanceAs (Decidable (_ ∨ _ ∨ _ ∨ _))

theorem decide_none (record : OrderRecord) :
    decide record none true =
      if record.reachedVenue then remainUnknownDecision record else neverSubmittedDecision record := by
  cases h : record.reachedVenue <;> simp [decide, h]

theorem decide_view_of_not_contradicts {record : OrderRecord} {view : VenueOrderView}
    (h : ¬ Contradicts record view) : decide record (some view) true = adoptDecision record view := by
  simp only [Contradicts, not_or, not_and, not_not, not_lt] at h
  obtain ⟨hterminal, hshrink, hover, hresolvable⟩ := h
  simp only [decide, Bool.not_true, Bool.false_eq_true, if_false, hresolvable, not_lt.mpr hshrink,
    not_lt.mpr hover]
  rw [if_neg]
  simpa using hterminal

theorem decide_view_of_contradicts {record : OrderRecord} {view : VenueOrderView}
    (h : Contradicts record view) :
    (decide record (some view) true).action = .recordDiscrepancy ∧
      (decide record (some view) true).targetState = none ∧
      (decide record (some view) true).filledQuantity = none ∧
      (decide record (some view) true).venueOrderId = none := by
  simp only [decide, Bool.not_true, Bool.false_eq_true, if_false]
  split
  · exact ⟨rfl, rfl, rfl, rfl⟩
  split
  · exact ⟨rfl, rfl, rfl, rfl⟩
  split
  · exact ⟨rfl, rfl, rfl, rfl⟩
  split
  · exact ⟨rfl, rfl, rfl, rfl⟩
  · rename_i hterminal hshrink hover hresolvable
    rcases h with h | h | h | h <;> simp_all

/-- A decision carries a total only when it is the venue's and fits the record. -/
theorem decide_filledQuantity {record : OrderRecord} {venueView : Option VenueOrderView}
    {venueReachable : Bool} {q : Decimal}
    (h : (decide record venueView venueReachable).filledQuantity = some q) :
    record.filledQuantity ≤ q ∧ q ≤ record.intent.quantity := by
  cases venueReachable with
  | false => cases h
  | true =>
      cases venueView with
      | none =>
          rw [decide_none] at h
          split at h <;> cases h
      | some view =>
          by_cases hc : Contradicts record view
          · rw [(decide_view_of_contradicts hc).2.2.1] at h
            cases h
          · rw [decide_view_of_not_contradicts hc] at h
            cases h
            simp only [Contradicts, not_or, not_lt] at hc
            exact ⟨hc.2.1, hc.2.2.1⟩

/-- A decision moves an order only to where reconciliation may conclude. -/
theorem decide_targetState {record : OrderRecord} {venueView : Option VenueOrderView} {venueReachable : Bool}
    {target : OrderState} (h : (decide record venueView venueReachable).targetState = some target) :
    resolvableFromReconciling target := by
  cases venueReachable with
  | false => cases h
  | true =>
      cases venueView with
      | none =>
          rw [decide_none] at h
          split at h <;> cases h <;> rfl
      | some view =>
          by_cases hc : Contradicts record view
          · rw [(decide_view_of_contradicts hc).2.1] at h
            cases h
          · rw [decide_view_of_not_contradicts hc] at h
            cases h
            simp only [Contradicts, not_or, not_not] at hc
            exact hc.2.2.2

theorem decide_venueOrderId {record : OrderRecord} {venueView : Option VenueOrderView}
    {venueReachable : Bool} {venueId : String}
    (h : (decide record venueView venueReachable).venueOrderId = some venueId) :
    ∃ view ∈ venueView, view.venueOrderId = some venueId := by
  cases venueReachable with
  | false => cases h
  | true =>
      cases venueView with
      | none =>
          rw [decide_none] at h
          split at h <;> cases h
      | some view =>
          refine ⟨view, rfl, ?_⟩
          by_cases hc : Contradicts record view
          · rw [(decide_view_of_contradicts hc).2.2.2] at h
            cases h
          · rw [decide_view_of_not_contradicts hc] at h
            exact h

theorem decide_view_action (record : OrderRecord) (view : VenueOrderView) :
    (decide record (some view) true).action = .adoptVenueState ↔ ¬ Contradicts record view := by
  constructor
  · intro h hc
    rw [(decide_view_of_contradicts hc).1] at h
    cases h
  · intro h
    rw [decide_view_of_not_contradicts h]
    rfl

end Aetheris.Reconcile
