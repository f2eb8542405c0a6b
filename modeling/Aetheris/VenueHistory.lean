import Aetheris.VenueAnswers
import Mathlib.Logic.Embedding.Basic

namespace Aetheris.VenueHistory

open Money Enums OrderRecords OrderMachine VenueAnswers

/-- The states the venue has a status for. -/
def venueStates : List OrderState := venueStatusToState.map Prod.snd

/-- What a venue may say of an order of this size that it knows under this id. -/
structure Plausible (venueOrderId : String) (quantity : Decimal) (view : VenueOrderView) : Prop where
  venueOrderId : view.venueOrderId = some venueOrderId
  state : view.state ∈ venueStates
  filled_le : view.filledQuantity ≤ quantity
  accepted : view.state = .accepted → view.filledQuantity = 0
  partiallyFilled : view.state = .partiallyFilled → 0 < view.filledQuantity
  unpriced : view.filledQuantity = 0 → view.averageFillPrice = none

/-- An order goes along the machine's edges, and what is executed stays executed. -/
structure Follows (older newer : VenueOrderView) : Prop where
  state : newer.state = older.state ∨ canTransition older.state newer.state
  filled : older.filledQuantity ≤ newer.filledQuantity
  settled : older.state.isTerminal → newer.filledQuantity = older.filledQuantity
  average : newer.filledQuantity = older.filledQuantity → newer.averageFillPrice = older.averageFillPrice

/-- An order at the venue: how it stands, and how it stood before, the latest first. -/
structure Placed (venueOrderId : String) where
  quantity : Decimal
  latest : VenueOrderView
  earlier : List VenueOrderView := []
  credible : ∀ view ∈ latest :: earlier, Plausible venueOrderId quantity view
  monotone : (latest :: earlier).Pairwise (fun newer older => Follows older newer)

namespace Placed

variable {venueOrderId : String}

def views (placed : Placed venueOrderId) : List VenueOrderView := placed.latest :: placed.earlier

def Extends (placed longer : Placed venueOrderId) : Prop :=
  longer.quantity = placed.quantity ∧ placed.views <:+ longer.views

theorem Extends.refl (placed : Placed venueOrderId) : placed.Extends placed := ⟨rfl, List.suffix_rfl⟩

theorem Extends.trans {a b c : Placed venueOrderId} (h : a.Extends b) (h' : b.Extends c) : a.Extends c :=
  ⟨h'.1.trans h.1, h.2.trans h'.2⟩

end Placed

/-- The orders at the venue by their client order id. Each has a venue order id of its own. -/
abbrev Venue (venueId : String ↪ String) := (clientOrderId : String) → Option (Placed (venueId clientOrderId))

/-- The venue moves on: it forgets nothing, and takes only what it was handed. -/
structure Ages {venueId : String ↪ String} (sent : List OrderRecord) (venue venue' : Venue venueId) : Prop where
  keeps : ∀ clientOrderId placed, venue clientOrderId = some placed →
    ∃ longer, venue' clientOrderId = some longer ∧ placed.Extends longer
  takes : ∀ clientOrderId placed, venue clientOrderId = none → venue' clientOrderId = some placed →
    ∃ record ∈ sent, record.clientOrderId = clientOrderId ∧ record.intent.quantity = placed.quantity

theorem ages_refl {venueId : String ↪ String} (sent : List OrderRecord) (venue : Venue venueId) :
    Ages sent venue venue where
  keeps := fun _ placed h => ⟨placed, h, .refl placed⟩
  takes := fun _ _ hn h => nomatch hn.symm.trans h

theorem canTransition_submitted {state : OrderState} (h : state ∈ venueStates) : canTransition .submitted state := by
  have hall : ∀ state ∈ venueStates, canTransition .submitted state := by decide
  exact hall state h

theorem resolvable_of_mem {state : OrderState} (h : state ∈ venueStates) : resolvableFromReconciling state := by
  have hall : ∀ state ∈ venueStates, resolvableFromReconciling state := by decide
  exact hall state h

theorem ne_submitted_of_mem {state : OrderState} (h : state ∈ venueStates) : state ≠ .submitted := by
  rintro rfl
  exact absurd h (by decide)

/-- An edge of the venue's to a state that is still open reports an execution. -/
theorem partiallyFilled_of_edge {state target : OrderState} (h : state ∈ venueStates) (ht : target ∈ venueStates)
    (hopen : target.isTerminal = false) (hc : canTransition state target) :
    target = .partiallyFilled ∧ (state = .accepted ∨ state = .partiallyFilled) := by
  have hall : ∀ state ∈ venueStates, ∀ target ∈ venueStates, target.isTerminal = false → canTransition state target →
      target = .partiallyFilled ∧ (state = .accepted ∨ state = .partiallyFilled) := by decide
  exact hall state h target ht hopen hc

theorem Follows.refl (view : VenueOrderView) : Follows view view where
  state := .inl rfl
  filled := le_rfl
  settled := fun _ => rfl
  average := fun _ => rfl

theorem Follows.state_of_terminal {older newer : VenueOrderView} (h : Follows older newer)
    (hterminal : older.state.isTerminal) : newer.state = older.state := by
  rcases h.state with hsame | hc
  · exact hsame
  · rw [not_canTransition_of_terminal hterminal] at hc
    cases hc

section

variable {venueOrderId : String} {quantity : Decimal} {older newer view other : VenueOrderView}
  {placed : Placed venueOrderId}

/-- An answer older than an open order's own is of the same state, or reports less. -/
theorem Follows.stale (h : Follows older newer) (hold : Plausible venueOrderId quantity older)
    (hnew : Plausible venueOrderId quantity newer) (hopen : newer.state.isTerminal = false) :
    older.state = newer.state ∨ older.filledQuantity < newer.filledQuantity := by
  rcases h.state with hsame | hc
  · exact .inl hsame.symm
  · obtain ⟨hpartly, haccepted | hsame⟩ := partiallyFilled_of_edge hold.state hnew.state hopen hc
    · right
      rw [hold.accepted haccepted]
      exact hnew.partiallyFilled hpartly
    · exact .inl (hsame.trans hpartly.symm)

theorem comparable (h : view ∈ placed.views) (h' : other ∈ placed.views) : Follows view other ∨ Follows other view := by
  have hpairwise : placed.views.Pairwise (fun a b => Follows a b ∨ Follows b a) := placed.monotone.imp .inr
  have hsymm : Std.Symm (fun a b => Follows a b ∨ Follows b a) := ⟨fun _ _ => Or.symm⟩
  exact hpairwise.forall_of_forall (fun a _ => .inl (.refl a)) h h'

theorem follows_latest (h : view ∈ placed.views) : Follows view placed.latest := by
  rcases List.mem_cons.mp h with rfl | h
  · exact .refl _
  · exact (List.pairwise_cons.mp placed.monotone).1 view h

theorem mem_latest (placed : Placed venueOrderId) : placed.latest ∈ placed.views := List.mem_cons_self ..

end

end Aetheris.VenueHistory
