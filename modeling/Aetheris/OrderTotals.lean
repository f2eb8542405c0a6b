import Aetheris.OrderHistory

namespace Aetheris.OrderTotals

open Lib Money Clock Enums OrderRecords OrderMachine OrderStore OrderEngine OrderCalls OrderWrites RecordStore
open OrderIdentity OrderHistory Transaction

/-- Fills, when there are any, add up to the total and give the average. -/
def FillsConsistent (r : OrderRecord) : Prop :=
  r.fills ≠ [] → OrderRecord.fillTotal r.fills = r.filledQuantity ∧
    r.averageFillPrice =
      some (quantizeUsdt (OrderRecord.fillNotional r.fills / OrderRecord.fillTotal r.fills))

instance (r : OrderRecord) : Decidable (FillsConsistent r) :=
  inferInstanceAs (Decidable (r.fills ≠ [] → _ ∧ _))

theorem fillTotal_nonneg (fills : List OrderFill) : 0 ≤ OrderRecord.fillTotal fills := by
  induction fills with
  | nil => exact le_refl 0
  | cons f fs ih =>
      change 0 ≤ f.quantity + OrderRecord.fillTotal fs
      exact add_nonneg f.quantity_pos.le ih

theorem fillTotal_concat (fills : List OrderFill) (f : OrderFill) :
    OrderRecord.fillTotal (fills ++ [f]) = OrderRecord.fillTotal fills + f.quantity := by
  simp [OrderRecord.fillTotal]

theorem averageOf_fills {fills : List OrderFill} (f : OrderFill) :
    averageOf (fills ++ [f]) (OrderRecord.fillTotal (fills ++ [f])) =
      some (quantizeUsdt
        (OrderRecord.fillNotional (fills ++ [f]) / OrderRecord.fillTotal (fills ++ [f]))) := by
  have hpos : 0 < OrderRecord.fillTotal (fills ++ [f]) := by
    rw [fillTotal_concat]
    exact add_pos_of_nonneg_of_pos (fillTotal_nonneg fills) f.quantity_pos
  rw [averageOf, if_pos hpos]

/-- A fill keeps a consistent record consistent exactly when no total stands
there without the fills it came from. -/
theorem withFill_consistent_iff {r : OrderRecord} (h : FillsConsistent r) (fill : OrderFill)
    (now : Timestamp) : FillsConsistent (withFill r fill now) ↔ r.fills ≠ [] ∨ r.filledQuantity = 0 := by
  have hne : (withFill r fill now).fills ≠ [] := by simp [withFill]
  have htotal : OrderRecord.fillTotal (withFill r fill now).fills =
      OrderRecord.fillTotal r.fills + fill.quantity := fillTotal_concat r.fills fill
  constructor
  · intro hc
    by_cases hf : r.fills = []
    · have hsum := (hc hne).1
      rw [htotal, hf] at hsum
      change 0 + fill.quantity = r.filledQuantity + fill.quantity at hsum
      exact .inr (add_right_cancel hsum).symm
    · exact .inl hf
  · intro hc _
    have hsum : OrderRecord.fillTotal r.fills = r.filledQuantity := by
      by_cases hf : r.fills = []
      · rw [hf, hc.resolve_left (not_not.mpr hf)]
        rfl
      · exact (h hf).1
    have hfilled : OrderRecord.fillTotal (withFill r fill now).fills = (withFill r fill now).filledQuantity := by
      rw [htotal, hsum]
      rfl
    refine ⟨hfilled, ?_⟩
    change averageOf (r.fills ++ [fill]) (withFill r fill now).filledQuantity = _
    rw [← hfilled]
    exact averageOf_fills fill

theorem FillsConsistent.of_eq {r r' : OrderRecord} (h : FillsConsistent r) (hf : r'.fills = r.fills)
    (hq : r'.filledQuantity = r.filledQuantity) (ha : r'.averageFillPrice = r.averageFillPrice) :
    FillsConsistent r' := by
  unfold FillsConsistent
  rw [hf, hq, ha]
  exact h

theorem applies_consistent {decision : ReconciliationDecision} {now : Timestamp} {r r' : OrderRecord}
    (h : Applies decision now r r') (hr : FillsConsistent r) : FillsConsistent r' := by
  cases h with
  | disputed | unanswered | repeated => exact hr.of_eq rfl rfl rfl
  | moved target =>
      cases hq : decision.filledQuantity with
      | none => exact hr.of_eq (by simp [withDecision, hq]) (by simp [withDecision, hq]) (by simp [withDecision, hq])
      | some q =>
          intro hne
          simp [withDecision, hq] at hne

def Lands (r : OrderRecord) (fill : OrderFill) : Prop :=
  r.filledQuantity + fill.quantity ≤ r.intent.quantity ∧
    canTransition r.state (fillTarget r (r.filledQuantity + fill.quantity))

instance (r : OrderRecord) (fill : OrderFill) : Decidable (Lands r fill) :=
  inferInstanceAs (Decidable (_ ∧ _))

def landing? : Operation → Option OrderFill
  | .applyFill _ fill _ => some fill
  | _ => none

/-- No fill lands on a total whose fills were dropped. -/
def FillMeetsFills (op : Operation) (r : OrderRecord) : Prop :=
  ∀ fill ∈ landing? op, Lands r fill → r.fills ≠ [] ∨ r.filledQuantity = 0

instance (op : Operation) (r : OrderRecord) : Decidable (FillMeetsFills op r) :=
  inferInstanceAs (Decidable (∀ fill ∈ landing? op, Lands r fill → _ ∨ _))

theorem write_consistent {op : Operation} {r r' : OrderRecord} (h : Write op r r') (hr : FillsConsistent r)
    (hg : FillMeetsFills op r) : FillsConsistent r' ∧ FillMeetsFills op r' := by
  cases h with
  | validating | riskRejected | cancelled | submitting | acknowledged | unknown | attempted | reopened
  | resolved | interrupted | damaged => exact ⟨hr.of_eq rfl rfl rfl, fun _ hf => nomatch hf⟩
  | overfilled => exact ⟨hr.of_eq rfl rfl rfl, hg⟩
  | @filled _ fill now hle hc =>
      have hmeets := hg fill rfl ⟨hle, hc⟩
      refine ⟨(withFill_consistent_iff hr fill now).mpr hmeets, fun _ _ _ => .inl ?_⟩
      simp [withFill]
  | reconciled happly | applied happly => exact ⟨applies_consistent happly hr, fun _ hf => nomatch hf⟩

def adoptedThenFilledRun : List Operation :=
  exampleSubmission ++
    [.applyVenueAck "order-1" "v1" .accepted 3,
      .reconcile "order-1" (some (exampleView .partiallyFilled (1 / 2) halfUnit_pos)) true 4,
      .applyFill "order-1" (exampleFill (1 / 5) fifthUnit_pos) 5]

def Fits (state : OrderState) (filledQuantity quantity : Decimal) : Prop :=
  (state = .filled → filledQuantity = quantity) ∧
    (state = .partiallyFilled → 0 < filledQuantity ∧ filledQuantity < quantity) ∧
    (state = .accepted → filledQuantity < quantity)

instance (state : OrderState) (filledQuantity quantity : Decimal) : Decidable (Fits state filledQuantity quantity) :=
  inferInstanceAs (Decidable (_ ∧ _ ∧ _))

/-- The state and total a call is about to put on a record on somebody's word:
the venue's in an acknowledgement or a view, an operator's in a resolution. -/
def outcome? : Operation → OrderRecord → Option (OrderState × Decimal)
  | .applyVenueAck _ _ state _, r =>
      if canTransition r.state state then some (state, r.filledQuantity) else none
  | .resolveManually _ toState _ _ _, r =>
      if r.isUnreconciled then some (toState, r.filledQuantity) else none
  | .reconcile _ (some view) true _, r =>
      if Reconcile.Contradicts r view ∨ view.state = r.state then none
      else some (view.state, view.filledQuantity)
  | _, _ => none

def OutcomeFits (op : Operation) (r : OrderRecord) : Prop :=
  fromDecide op ∧ ∀ o ∈ outcome? op r, Fits o.1 o.2 r.intent.quantity

instance (op : Operation) (r : OrderRecord) : Decidable (OutcomeFits op r) :=
  inferInstanceAs (Decidable (_ ∧ ∀ o ∈ outcome? op r, Fits o.1 o.2 r.intent.quantity))

structure Fitting (r : OrderRecord) : Prop where
  fits : Fits r.state r.filledQuantity r.intent.quantity
  bounded : Bounded r

theorem fits_fillTarget {r : OrderRecord} {fill : OrderFill} (h : Bounded r)
    (hle : r.filledQuantity + fill.quantity ≤ r.intent.quantity) :
    Fits (fillTarget r (r.filledQuantity + fill.quantity)) (r.filledQuantity + fill.quantity)
      r.intent.quantity := by
  unfold fillTarget
  split
  · rename_i heq
    exact ⟨fun _ => heq, by simp, by simp⟩
  · rename_i hne
    have hpos : 0 < r.filledQuantity + fill.quantity := add_pos_of_nonneg_of_pos h.nonneg fill.quantity_pos
    exact ⟨by simp, fun _ => ⟨hpos, lt_of_le_of_ne hle hne⟩, by simp⟩

def saysTotal : OrderState → Bool
  | .filled | .partiallyFilled | .accepted => true
  | _ => false

theorem fits_of_silent {state : OrderState} (h : saysTotal state = false) (filledQuantity quantity : Decimal) :
    Fits state filledQuantity quantity := by
  cases state <;> first | (cases h; done) | exact ⟨by simp, by simp, by simp⟩

theorem outcomeFits_of_none {op : Operation} {r : OrderRecord} (hd : fromDecide op)
    (h : outcome? op r = none) : OutcomeFits op r :=
  ⟨hd, by simp [h]⟩

theorem OutcomeFits.of_eq {op : Operation} {r r' : OrderRecord} (h : OutcomeFits op r)
    (hs : r'.state = r.state) (hf : r'.filledQuantity = r.filledQuantity) (hi : r'.intent = r.intent) :
    OutcomeFits op r' := by
  have ho : outcome? op r' = outcome? op r := by
    cases op with
    | applyVenueAck => simp only [outcome?, hs, hf]
    | resolveManually =>
        have hu : r'.isUnreconciled = r.isUnreconciled := by simp only [OrderRecord.isUnreconciled, hs]
        simp only [outcome?, hu, hf]
    | reconcile orderId venueView venueReachable now =>
        cases venueView with
        | none => rfl
        | some view =>
            cases venueReachable with
            | false => rfl
            | true =>
                have hc : Reconcile.Contradicts r' view ↔ Reconcile.Contradicts r view := by
                  simp only [Reconcile.Contradicts, OrderRecord.isTerminal, hs, hf, hi]
                exact if_congr (or_congr hc (by rw [hs])) rfl rfl
    | _ => rfl
  rw [OutcomeFits, ho, hi]
  exact h

theorem reconciled_fitting {r r' : OrderRecord} {venueView : Option VenueOrderView} {venueReachable : Bool}
    {now : Timestamp} (h : Applies (Reconcile.decide r venueView venueReachable) now r r') (hr : Fitting r)
    (hg : OutcomeFits (.reconcile r.orderId venueView venueReachable now) r) :
    Fitting r' ∧ OutcomeFits (.reconcile r.orderId venueView venueReachable now) r' := by
  have hbounded := (applies_grows h hr.bounded).1
  cases h with
  | disputed | unanswered | repeated => exact ⟨⟨hr.fits, hbounded⟩, hg.of_eq rfl rfl rfl⟩
  | moved target hrecord hunreachable htarget hne hc =>
      cases venueReachable with
      | false => exact absurd rfl hunreachable
      | true =>
          cases venueView with
          | none =>
              rw [Reconcile.decide_none] at htarget
              refine ⟨⟨fits_of_silent ?_ _ _, hbounded⟩, outcomeFits_of_none rfl rfl⟩
              split at htarget <;> cases htarget <;> rfl
          | some view =>
              by_cases hcon : Reconcile.Contradicts r view
              · exact absurd (Reconcile.decide_view_of_contradicts hcon).1 hrecord
              · rw [Reconcile.decide_view_of_not_contradicts hcon] at htarget hbounded ⊢
                cases htarget
                have hfits := hg.2 (view.state, view.filledQuantity) (by simp [outcome?, hcon, hne])
                refine ⟨⟨hfits, hbounded⟩, outcomeFits_of_none rfl ?_⟩
                simp [outcome?, withDecision, Reconcile.adoptDecision]

theorem write_fitting {op : Operation} {r r' : OrderRecord} (h : Write op r r') (hr : Fitting r)
    (hg : OutcomeFits op r) : Fitting r' ∧ OutcomeFits op r' := by
  have hbounded := (write_grows h hg.1 hr.bounded).1
  cases h with
  | validating | riskRejected | cancelled | submitting | unknown | attempted | interrupted =>
      exact ⟨⟨fits_of_silent rfl _ _, hbounded⟩, outcomeFits_of_none rfl rfl⟩
  | overfilled | damaged => exact ⟨⟨hr.fits, hbounded⟩, outcomeFits_of_none rfl rfl⟩
  | filled hle => exact ⟨⟨fits_fillTarget hr.bounded hle, hbounded⟩, outcomeFits_of_none rfl rfl⟩
  | @acknowledged _ _ state _ hc =>
      have hfits := hg.2 (state, r.filledQuantity) (by simp [outcome?, hc])
      refine ⟨⟨hfits, hbounded⟩, rfl, fun o ho => ?_⟩
      simp only [outcome?] at ho
      split at ho
      · cases ho
        exact hfits
      · cases ho
  | @reopened _ toState _ _ _ hs =>
      have hfits := hg.2 (toState, r.filledQuantity) (by simp [outcome?, OrderRecord.isUnreconciled, hs])
      refine ⟨⟨fits_of_silent rfl _ _, hbounded⟩, rfl, fun o ho => ?_⟩
      cases ho
      exact hfits
  | @resolved _ toState _ _ _ hs hc =>
      have hfits := hg.2 (toState, r.filledQuantity) (by simp [outcome?, OrderRecord.isUnreconciled, hs])
      refine ⟨⟨hfits, hbounded⟩, rfl, fun o ho => ?_⟩
      simp only [outcome?] at ho
      split at ho
      · cases ho
        exact hfits
      · cases ho
  | reconciled happly => exact reconciled_fitting happly hr hg
  | applied => cases hg.1

def adoptedCompleteRun : List Operation :=
  exampleSubmission ++
    [.applyVenueAck "order-1" "v1" .accepted 3, .applyFill "order-1" (exampleFill (1 / 2) halfUnit_pos) 4,
      .reconcile "order-1" (some (exampleView .filled 1 wholeUnit_pos)) true 5]

/-- The venue says `FILLED` with two fifths of the order executed, and is believed. -/
def adoptedShortRun : List Operation :=
  exampleSubmission ++
    [.applyVenueAck "order-1" "v1" .accepted 3,
      .reconcile "order-1" (some (exampleView .filled (2 / 5) (by norm_num))) true 4]

end Aetheris.OrderTotals
