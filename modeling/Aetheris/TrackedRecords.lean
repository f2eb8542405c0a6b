import Aetheris.Settlement
import Aetheris.VenueHistory

namespace Aetheris.TrackedRecords

open Money Clock Enums OrderRecords OrderMachine OrderStore OrderEngine OrderCalls OrderIdentity Settlement VenueHistory
open RecordStore
open Reconcile hiding decide

variable {venueOrderId : String} {placed : Placed venueOrderId} {venue : Option (Placed venueOrderId)}
  {view : VenueOrderView} {r r' : OrderRecord} {now : Timestamp} {durable : Bool}

/-- Nothing of the venue is on record. -/
structure Blank (r : OrderRecord) : Prop where
  filledQuantity : r.filledQuantity = 0
  averageFillPrice : r.averageFillPrice = none
  venueOrderId : r.venueOrderId = none

/-- How an order is on record beside what the venue has of it: as it was sent, or
as the venue once had it. -/
def Standing : Option (Placed venueOrderId) → OrderRecord → Prop
  | none, r => Blank r ∧ (r.submittedAt.isSome → r.state = .submitted ∨ r.state = .unknown)
  | some placed, r => r.submittedAt.isSome ∧ r.intent.quantity = placed.quantity ∧
      (Blank r ∧ r.state = .submitted ∨ ∃ view ∈ placed.views, Carries r view)

structure Tracks (venue : Option (Placed venueOrderId)) (r : OrderRecord) : Prop where
  standing : Standing venue r
  stamped : r.state = .submitted → r.submittedAt.isSome
  fills : r.fills = []
  venueLeverage : ∀ l ∈ r.venueLeverage, 0 < l

/-- What a write keeps of the version before it. -/
structure Succeeds (r r' : OrderRecord) : Prop where
  orderId : r'.orderId = r.orderId
  clientOrderId : r'.clientOrderId = r.clientOrderId
  filledQuantity : r.filledQuantity ≤ r'.filledQuantity
  sent : r.submittedAt.isSome → r'.submittedAt.isSome ∧ r'.intent.quantity = r.intent.quantity

theorem Succeeds.refl (r : OrderRecord) : Succeeds r r := ⟨rfl, rfl, le_rfl, fun hs => ⟨hs, rfl⟩⟩

theorem Succeeds.trans {a b c : OrderRecord} (h : Succeeds a b) (h' : Succeeds b c) : Succeeds a c where
  orderId := h'.orderId.trans h.orderId
  clientOrderId := h'.clientOrderId.trans h.clientOrderId
  filledQuantity := h.filledQuantity.trans h'.filledQuantity
  sent := fun hs => ⟨(h'.sent (h.sent hs).1).1, (h'.sent (h.sent hs).1).2.trans (h.sent hs).2⟩

/-- A note on a record is no news of its order. -/
def annotate (r : OrderRecord) (detail : Option String) (reconciledAt : Option Timestamp) (updatedAt : Timestamp)
    (discrepancies : List OrderDiscrepancy) : OrderRecord :=
  { r with
    reconciliationDetail := detail
    lastReconciledAt := reconciledAt
    updatedAt := updatedAt
    discrepancies := discrepancies }

theorem Tracks.annotate (h : Tracks venue r) (detail : Option String) (reconciledAt : Option Timestamp)
    (updatedAt : Timestamp) (discrepancies : List OrderDiscrepancy) :
    Tracks venue (annotate r detail reconciledAt updatedAt discrepancies) := by
  refine ⟨?_, h.stamped, h.fills, h.venueLeverage⟩
  cases venue with
  | none => exact ⟨⟨h.standing.1.filledQuantity, h.standing.1.averageFillPrice, h.standing.1.venueOrderId⟩, h.standing.2⟩
  | some placed =>
      obtain ⟨hs, hq, ⟨hb, hstate⟩ | ⟨view, hview, hc⟩⟩ := h.standing
      · exact ⟨hs, hq, .inl ⟨⟨hb.filledQuantity, hb.averageFillPrice, hb.venueOrderId⟩, hstate⟩⟩
      · exact ⟨hs, hq, .inr ⟨view, hview, hc.state, hc.filledQuantity, hc.averageFillPrice, hc.venueOrderId⟩⟩

theorem succeeds_annotate (r : OrderRecord) (detail : Option String) (reconciledAt : Option Timestamp)
    (updatedAt : Timestamp) (discrepancies : List OrderDiscrepancy) :
    Succeeds r (annotate r detail reconciledAt updatedAt discrepancies) :=
  ⟨rfl, rfl, le_rfl, fun hs => ⟨hs, rfl⟩⟩

theorem Tracks.readable (h : Tracks venue r) : readable durable r := by
  have hfilled : 0 ≤ r.filledQuantity := by
    cases venue with
    | none => exact h.standing.1.filledQuantity.ge
    | some placed =>
        obtain ⟨_, _, ⟨hb, _⟩ | ⟨view, _, hc⟩⟩ := h.standing
        · exact hb.filledQuantity.ge
        · rw [hc.filledQuantity]
          exact view.filledQuantity_nonneg
  have hleverage : r.venueLeverage.all (fun l => decide (0 < l)) = true := by
    cases hl : r.venueLeverage with
    | none => rfl
    | some l => simpa using h.venueLeverage l hl
  simp [RecordStore.readable, OrderRecord.validates, OrderRecord.fillsAgreeWithFilledQuantity, hfilled, hleverage,
    h.fills]

theorem Tracks.unplaced (h : Tracks venue r) (hr : r.submittedAt = none) : venue = none := by
  cases venue with
  | none => rfl
  | some placed =>
      have hs := h.standing.1
      rw [hr] at hs
      cases hs

theorem tracks_build [Runtime] (orderId : String) (intent : OrderIntent) :
    Tracks (none : Option (Placed venueOrderId)) (build orderId intent) where
  standing := ⟨⟨rfl, rfl, rfl⟩, fun hs => nomatch hs⟩
  stamped := fun hs => nomatch hs
  fills := rfl
  venueLeverage := fun _ hl => nomatch hl

/-- What a submission writes before its order leaves. -/
theorem Tracks.drafted (h : Tracks venue r) (hr : r.submittedAt = none) (hs : r'.submittedAt = none)
    (hstate : r'.state ≠ .submitted) (hfilled : r'.filledQuantity = r.filledQuantity)
    (haverage : r'.averageFillPrice = r.averageFillPrice) (hvenue : r'.venueOrderId = r.venueOrderId)
    (hfills : r'.fills = r.fills) (hleverage : ∀ l ∈ r'.venueLeverage, 0 < l) : Tracks venue r' := by
  cases h.unplaced hr
  refine ⟨⟨?_, fun hsent => ?_⟩, fun he => absurd he hstate, hfills.trans h.fills, hleverage⟩
  · exact ⟨hfilled.trans h.standing.1.filledQuantity, haverage.trans h.standing.1.averageFillPrice,
      hvenue.trans h.standing.1.venueOrderId⟩
  · rw [hs] at hsent
    cases hsent

theorem Tracks.submitting (h : Tracks venue r) (hr : r.submittedAt = none) :
    Tracks venue (withMove r .submitted now (some now)) := by
  cases h.unplaced hr
  refine ⟨⟨?_, fun _ => .inl rfl⟩, fun _ => rfl, h.fills, h.venueLeverage⟩
  exact ⟨h.standing.1.filledQuantity, h.standing.1.averageFillPrice, h.standing.1.venueOrderId⟩

theorem Tracks.unknown (h : Tracks (none : Option (Placed venueOrderId)) r) (reason : String) :
    Tracks (none : Option (Placed venueOrderId)) (withUnknown r reason now) where
  standing := ⟨⟨h.standing.1.filledQuantity, h.standing.1.averageFillPrice, h.standing.1.venueOrderId⟩,
    fun _ => .inr rfl⟩
  stamped := fun hs => nomatch hs
  fills := h.fills
  venueLeverage := h.venueLeverage

/-- A venue that takes an order finds it on record as it was sent. -/
theorem Tracks.taken (h : Tracks (none : Option (Placed venueOrderId)) r) (hs : r.submittedAt.isSome)
    (hq : r.intent.quantity = placed.quantity) (hknown : r.state ≠ .unknown) : Tracks (some placed) r where
  standing := ⟨hs, hq, .inl ⟨h.standing.1, (h.standing.2 hs).resolve_right hknown⟩⟩
  stamped := h.stamped
  fills := h.fills
  venueLeverage := h.venueLeverage

theorem Tracks.extends {longer : Placed venueOrderId} (h : Tracks (some placed) r) (he : placed.Extends longer) :
    Tracks (some longer) r where
  standing := by
    obtain ⟨hs, hq, hrest⟩ := h.standing
    refine ⟨hs, hq.trans he.1.symm, hrest.imp_right ?_⟩
    rintro ⟨view, hview, hc⟩
    exact ⟨view, he.2.subset hview, hc⟩
  stamped := h.stamped
  fills := h.fills
  venueLeverage := h.venueLeverage

/-- Where an edge leads to an answer of nothing executed, nothing is on record either. -/
theorem unexecuted_of_edge {other : VenueOrderView} (hview : view ∈ placed.views) (hother : other ∈ placed.views)
    (hzero : view.filledQuantity = 0) (hc : canTransition other.state view.state) : other.filledQuantity = 0 := by
  rcases comparable hother hview with h | h
  · exact le_antisymm (hzero ▸ h.filled) other.filledQuantity_nonneg
  · by_cases hterminal : view.state.isTerminal = true
    · rw [h.settled hterminal, hzero]
    · obtain ⟨hpartly, _⟩ := partiallyFilled_of_edge (placed.credible other hother).state
        (placed.credible view hview).state (Bool.eq_false_iff.mpr hterminal) hc
      exact absurd hzero ((placed.credible view hview).partiallyFilled hpartly).ne'

theorem Tracks.acknowledged (h : Tracks (some placed) r) (hview : view ∈ placed.views)
    (hzero : view.filledQuantity = 0) (hc : canTransition r.state view.state) :
    Tracks (some placed) (withAck r (view.venueOrderId.getD "") view.state now) := by
  obtain ⟨hs, hq, hstanding⟩ := h.standing
  have hcredible := placed.credible view hview
  have hunexecuted : r.filledQuantity = 0 ∧ r.averageFillPrice = none := by
    rcases hstanding with ⟨hb, _⟩ | ⟨other, hother, hcarries⟩
    · exact ⟨hb.filledQuantity, hb.averageFillPrice⟩
    · have hnone := unexecuted_of_edge hview hother hzero (hcarries.state ▸ hc)
      exact ⟨hcarries.filledQuantity.trans hnone,
        hcarries.averageFillPrice.trans ((placed.credible other hother).unpriced hnone)⟩
  refine ⟨⟨hs, hq, .inr ⟨view, hview, rfl, ?_, ?_, ?_⟩⟩, fun _ => hs, h.fills, h.venueLeverage⟩
  · exact hunexecuted.1.trans hzero.symm
  · exact hunexecuted.2.trans (hcredible.unpriced hzero).symm
  · rintro venueId hv
    simp [withAck, Option.mem_def.mp hv]

/-- What a sweep or a cancellation may have been told: something the venue has
said of the order, that it has no such order, or nothing. -/
def Told (venue : Option (Placed venueOrderId)) : Option VenueOrderView → Bool → Prop
  | _, false => True
  | none, true => venue = none
  | some view, true => ∃ placed ∈ venue, view ∈ placed.views

theorem Tracks.applicable (h : Tracks venue r) (hs : r.submittedAt.isSome) {answer : Option VenueOrderView}
    {reachable : Bool} (htold : Told venue answer reachable) : Applicable r answer reachable := by
  cases reachable with
  | false => trivial
  | true =>
      cases answer with
      | none =>
          cases htold
          rw [Applicable, absentState, OrderRecord.reachedVenue, if_pos hs]
          rcases h.standing.2 hs with hstate | hstate
          · exact .inr (by rw [hstate]; rfl)
          · exact .inl hstate.symm
      | some view =>
          obtain ⟨placed, hplaced, hview⟩ := htold
          cases hplaced
          have hcredible := placed.credible view hview
          obtain ⟨_, _, ⟨_, hstate⟩ | ⟨other, hother, hc⟩⟩ := h.standing
          · right; right
            rw [hstate]
            exact canTransition_submitted hcredible.state
          · rcases comparable hother hview with hnewer | holder
            · right
              rw [hc.state]
              exact hnewer.state
            · by_cases hterminal : r.isTerminal = true
              · by_cases hsame : view.state = r.state
                · exact .inr (.inl hsame)
                · exact .inl (.inl ⟨hterminal, hsame⟩)
              · have hopen : other.state.isTerminal = false := by
                  rw [← hc.state]
                  exact Bool.eq_false_iff.mpr hterminal
                rcases holder.stale hcredible (placed.credible other hother) hopen with hsame | hless
                · exact .inr (.inl (hsame.trans hc.state.symm))
                · exact .inl (.inr (.inl (hc.filledQuantity ▸ hless)))

theorem Tracks.adopted (h : Tracks (some placed) r) (hview : view ∈ placed.views) (hc : ¬ Contradicts r view) :
    Tracks (some placed) (withDecision r (adoptDecision r view) view.state now) ∧
      Succeeds r (withDecision r (adoptDecision r view) view.state now) := by
  have hgrown : r.filledQuantity ≤ view.filledQuantity := by
    by_contra hless
    exact hc (.inr (.inl (not_le.mp hless)))
  obtain ⟨hs, hq, _⟩ := h.standing
  refine ⟨⟨⟨hs, hq, .inr ⟨view, hview, adopted_carries view.state now rfl⟩⟩, fun _ => hs, rfl, h.venueLeverage⟩, ?_⟩
  exact ⟨rfl, rfl, hgrown, fun hs => ⟨hs, rfl⟩⟩

/-- Whatever it was told, and however long ago, reconciling keeps an order as the venue once had it. -/
theorem Tracks.reconciled (h : Tracks venue r) (hs : r.submittedAt.isSome) {answer : Option VenueOrderView}
    {reachable : Bool} (htold : Told venue answer reachable)
    (happly : Applies (Reconcile.decide r answer reachable) now r r') : Tracks venue r' ∧ Succeeds r r' := by
  cases happly with
  | disputed => exact ⟨h.annotate .., succeeds_annotate ..⟩
  | unanswered | repeated => exact ⟨h.annotate .., succeeds_annotate ..⟩
  | moved target hrecord _ ht =>
      cases reachable with
      | false => cases ht
      | true =>
          cases answer with
          | none =>
              cases htold
              rw [decide_none, OrderRecord.reachedVenue, if_pos hs] at ht ⊢
              cases ht
              exact ⟨(h.unknown "" : Tracks none (withUnknown _ "" now)).annotate .., rfl, rfl, le_rfl, fun hs => ⟨hs, rfl⟩⟩
          | some view =>
              obtain ⟨placed, hplaced, hview⟩ := htold
              cases hplaced
              by_cases hc : Contradicts r view
              · exact absurd (decide_view_of_contradicts hc).1 hrecord
              · rw [decide_view_of_not_contradicts hc] at ht ⊢
                cases ht
                exact h.adopted hview hc

theorem Tracks.carries_of_terminal (h : Tracks (some placed) r) (hterminal : r.isTerminal) :
    Carries r placed.latest := by
  obtain ⟨_, _, ⟨_, hstate⟩ | ⟨view, hview, hc⟩⟩ := h.standing
  · rw [OrderRecord.isTerminal, hstate] at hterminal
    cases hterminal
  · have hlatest := follows_latest hview
    have hsettled : view.state.isTerminal := hc.state ▸ hterminal
    have hfilled := hlatest.settled hsettled
    refine ⟨hc.state.trans (hlatest.state_of_terminal hsettled).symm, hc.filledQuantity.trans hfilled.symm,
      hc.averageFillPrice.trans (hlatest.average hfilled).symm, fun venueId hv => ?_⟩
    rw [(placed.credible _ (mem_latest placed)).venueOrderId, ← (placed.credible view hview).venueOrderId] at hv
    exact hc.venueOrderId venueId hv

/-- The state the order has at the venue is not on record with less than the venue's total. -/
def CaughtUp (r : OrderRecord) (view : VenueOrderView) : Prop :=
  view.state = r.state → r.filledQuantity = view.filledQuantity

theorem Tracks.not_contradicts (h : Tracks (some placed) r) (hopen : r.isTerminal = false) :
    ¬ Contradicts r placed.latest := by
  have hcredible := placed.credible _ (mem_latest placed)
  obtain ⟨_, hq, hstanding⟩ := h.standing
  have hgrown : r.filledQuantity ≤ placed.latest.filledQuantity := by
    rcases hstanding with ⟨hb, _⟩ | ⟨view, hview, hc⟩
    · rw [hb.filledQuantity]
      exact placed.latest.filledQuantity_nonneg
    · rw [hc.filledQuantity]
      exact (follows_latest hview).filled
  rintro (⟨hterminal, _⟩ | hless | hover | hunresolvable)
  · rw [hopen] at hterminal
    cases hterminal
  · exact absurd hgrown (not_le.mpr hless)
  · rw [hq] at hover
    exact absurd hcredible.filled_le (not_le.mpr hover)
  · exact hunresolvable (resolvable_of_mem hcredible.state)

/-- An answer about the state on record is not taken up, so its totals must be known already. -/
theorem Tracks.settled (h : Tracks (some placed) r) (hopen : r.isTerminal = false)
    (happly : Applies (Reconcile.decide r (some placed.latest) true) now r r') :
    r'.state = placed.latest.state ∧ (Carries r' placed.latest ↔ CaughtUp r placed.latest) := by
  have hcredible := placed.credible _ (mem_latest placed)
  rw [decide_view_of_not_contradicts (h.not_contradicts hopen)] at happly
  cases happly with
  | disputed hd => cases hd
  | unanswered hu => cases hu
  | moved target _ _ ht hne =>
      cases ht
      exact ⟨rfl, iff_of_true (adopted_carries _ now rfl) fun hsame => absurd hsame hne⟩
  | repeated _ _ ht =>
      have hsame : placed.latest.state = r.state := Option.some.inj ht
      refine ⟨hsame.symm, fun hc _ => hc.filledQuantity, fun hcaught => ?_⟩
      obtain ⟨_, _, ⟨_, hstate⟩ | ⟨view, hview, hc⟩⟩ := h.standing
      · exact absurd (hsame.trans hstate) (ne_submitted_of_mem hcredible.state)
      · have hfilled := hcaught hsame
        have htotal : placed.latest.filledQuantity = view.filledQuantity := hfilled.symm.trans hc.filledQuantity
        refine ⟨hsame.symm, hfilled, ?_, fun venueId hv => ?_⟩
        · exact hc.averageFillPrice.trans ((follows_latest hview).average htotal).symm
        · rw [hcredible.venueOrderId, ← (placed.credible view hview).venueOrderId] at hv
          exact hc.venueOrderId venueId hv

theorem Tracks.named (h : Tracks venue r) {venueId : String} (hv : r.venueOrderId = some venueId) :
    venueId = venueOrderId ∧ venue.isSome := by
  cases venue with
  | none =>
      rw [h.standing.1.venueOrderId] at hv
      cases hv
  | some placed =>
      obtain ⟨_, _, ⟨hb, _⟩ | ⟨view, hview, hc⟩⟩ := h.standing
      · rw [hb.venueOrderId] at hv
        cases hv
      · have hnamed := hc.venueOrderId _ (placed.credible view hview).venueOrderId
        exact ⟨Option.some.inj (hv.symm.trans hnamed), rfl⟩

end Aetheris.TrackedRecords
