import Aetheris.OrderTotals
import Aetheris.Settlement

namespace Aetheris.OrderRedelivery

open Lib Money Clock Enums OrderRecords OrderMachine OrderStore OrderEngine OrderCalls OrderWrites RecordStore
open OrderIdentity OrderHistory OrderTotals Settlement Transaction

/-- What a record says of its executions. -/
structure Tally where
  state : OrderState
  filledQuantity : Decimal
  averageFillPrice : Option Decimal
  fills : List OrderFill
  deriving DecidableEq

def tally (r : OrderRecord) : Tally := ⟨r.state, r.filledQuantity, r.averageFillPrice, r.fills⟩

/-- The same executions, in whatever order. -/
structure Tally.Same (a b : Tally) : Prop where
  state : a.state = b.state
  filledQuantity : a.filledQuantity = b.filledQuantity
  averageFillPrice : a.averageFillPrice = b.averageFillPrice
  fills : a.fills.Perm b.fills

def ids (fills : List OrderFill) : List String := fills.map OrderFill.fillId

structure Delivery where
  fill : OrderFill
  now : Timestamp

/-- The executions that are delivered and not known yet, each at its first delivery. -/
def news (known : List String) : List Delivery → List OrderFill
  | [] => []
  | d :: rest =>
      if d.fill.fillId ∈ known then news known rest else d.fill :: news (known ++ [d.fill.fillId]) rest

variable {durable : Bool}

def deliver (orderId : String) (d : Delivery) : OrderM (RecordStore durable) Unit :=
  quietly (applyFill orderId d.fill d.now)

/-- The delivery leaves the order's executions as they were. -/
def Unmoved (s : RecordStore durable) (orderId : String) (d : Delivery) : Prop :=
  ((attempt (deliver orderId) s d).find? orderId).map tally = (s.find? orderId).map tally

instance (s : RecordStore durable) (orderId : String) (d : Delivery) : Decidable (Unmoved s orderId d) :=
  inferInstanceAs (Decidable (_ = _))

/-- A fill that is booked already does not fit what is left of the order, and none lands on a total
whose fills were dropped, which a durable store could not load again. -/
def Sound (orderId : String) (s : RecordStore durable) (d : Delivery) : Prop :=
  ∀ r ∈ s.find? orderId, Lands r d.fill → d.fill.fillId ∉ ids r.fills ∧
    (durable = true → r.fills ≠ [] ∨ r.filledQuantity = 0)

instance (orderId : String) (s : RecordStore durable) (d : Delivery) : Decidable (Sound orderId s d) :=
  match h : s.find? orderId with
  | none => isTrue (by simp [Sound, h])
  | some r => decidable_of_iff (Lands r d.fill → d.fill.fillId ∉ ids r.fills ∧
      (durable = true → r.fills ≠ [] ∨ r.filledQuantity = 0)) (by simp [Sound, h])

section Deliveries

variable {s : RecordStore durable} {orderId : String} {r : OrderRecord} {d : Delivery}

theorem annotated_refl (r : OrderRecord) : Annotated r r :=
  ⟨r.reconciliationDetail, r.lastReconciledAt, r.updatedAt, [], by simp⟩

theorem annotated_tally {r r' : OrderRecord} (h : Annotated r r') : tally r' = tally r := by
  obtain ⟨_, _, _, _, rfl⟩ := h
  rfl

theorem attempt_of_ok {t : RecordStore durable} {a : OrderRecord} (h : applyFill orderId d.fill d.now s = .ok (a, t)) :
    attempt (deliver orderId) s d = t := by
  rw [attempt, deliver, quietly, bind_of_ok h]
  rfl

theorem attempt_of_error {e : OrderError} (h : applyFill orderId d.fill d.now s = .error e) :
    attempt (deliver orderId) s d = s := by
  rw [attempt, deliver, quietly, bind_of_error h]

/-- A fill that lands is booked. -/
theorem deliver_lands (hr : s.find? orderId = some r) (hreadable : readable durable r) (hlands : Lands r d.fill) :
    (attempt (deliver orderId) s d).find? orderId = some (withFill r d.fill d.now) := by
  have hloads : Loads s orderId r := ⟨hr, hreadable⟩
  have hfits : ¬ r.intent.quantity < r.filledQuantity + d.fill.quantity := not_lt.mpr hlands.1
  have hupdate : OrderRepository.update (withFill r d.fill d.now) s =
      .ok (withFill r d.fill d.now, s.put (withFill r d.fill d.now)) :=
    (update_held hloads (withFill r d.fill d.now) rfl).mpr
      ((puts_iff_of_eq hloads (withFill r d.fill d.now) rfl rfl).mpr rfl)
  have hbooked : applyFill orderId d.fill d.now s =
      .ok (withFill r d.fill d.now, s.put (withFill r d.fill d.now)) := by
    rw [applyFill, held_of_loads _ hloads]
    dsimp only
    rw [if_neg hfits]
    exact (bind_of_ok (check_ok.mpr ⟨hlands.2, rfl⟩)).trans hupdate
  have hid : (withFill r d.fill d.now).orderId = orderId := hloads.orderId
  rw [attempt_of_ok hbooked, ← hid, find?_put_self]

/-- Any other leaves a note at most. -/
theorem deliver_stays (hr : s.find? orderId = some r) (hstays : ¬ (readable durable r ∧ Lands r d.fill)) :
    ∃ r', (attempt (deliver orderId) s d).find? orderId = some r' ∧ Annotated r r' := by
  cases hfill : applyFill orderId d.fill d.now s with
  | error e =>
      rw [attempt_of_error hfill]
      exact ⟨r, hr, annotated_refl r⟩
  | ok p =>
      obtain ⟨a, t⟩ := p
      rw [attempt_of_ok hfill]
      obtain ⟨r₁, hloads, hcase⟩ := applyFill_ok hfill
      cases hr.symm.trans hloads.1
      rcases hcase with ⟨detail, _, _, he⟩ | ⟨hfits, hc, _⟩
      · cases he
        have hid : (withDiscrepancy r detail d.now).orderId = orderId := hloads.orderId
        refine ⟨withDiscrepancy r detail d.now, ?_, withDiscrepancy_annotated r detail d.now⟩
        rw [← hid, find?_put_self]
      · exact absurd ⟨hloads.2, hfits, hc⟩ hstays

/-- A delivery changes nothing exactly if the fill does not land. -/
theorem unmoved_iff (hr : s.find? orderId = some r) : Unmoved s orderId d ↔ ¬ (readable durable r ∧ Lands r d.fill) := by
  constructor
  · rintro h ⟨hreadable, hlands⟩
    rw [Unmoved, hr, deliver_lands hr hreadable hlands] at h
    have htotal : r.filledQuantity + d.fill.quantity = r.filledQuantity :=
      congrArg Tally.filledQuantity (Option.some.inj h)
    exact d.fill.quantity_pos.ne' (add_eq_left.mp htotal)
  · intro hstays
    obtain ⟨r', hr', hannotated⟩ := deliver_stays hr hstays
    rw [Unmoved, hr, hr', Option.map_some, Option.map_some, annotated_tally hannotated]

/-- The state takes fills. -/
def Takes (r : OrderRecord) : Prop := canTransition r.state .partiallyFilled

theorem canTransition_filled (state : OrderState) :
    canTransition state .filled = canTransition state .partiallyFilled := by
  cases state <;> rfl

theorem canTransition_fillTarget (r : OrderRecord) (total : Decimal) :
    canTransition r.state (fillTarget r total) = canTransition r.state .partiallyFilled := by
  rw [fillTarget]
  split
  · exact canTransition_filled r.state
  · rfl

theorem lands_iff {fill : OrderFill} :
    Lands r fill ↔ r.filledQuantity + fill.quantity ≤ r.intent.quantity ∧ Takes r := by
  rw [Lands, canTransition_fillTarget]
  rfl

/-- The total a record shows comes from the fills it holds. -/
def Whole (durable : Bool) (r : OrderRecord) : Prop := durable = true → r.fills ≠ [] ∨ r.filledQuantity = 0

theorem fillsAgree_iff : r.fillsAgreeWithFilledQuantity ↔ (r.fills ≠ [] → OrderRecord.fillTotal r.fills = r.filledQuantity) := by
  rw [OrderRecord.fillsAgreeWithFilledQuantity, Bool.or_eq_true, List.isEmpty_iff, decide_eq_true_iff]
  exact or_iff_not_imp_left

theorem readable_true_iff : readable true r ↔
    (0 ≤ r.filledQuantity ∧ r.venueLeverage.all (fun x => decide (0 < x)) = true ∧ r.fillsAgreeWithFilledQuantity) ∧
      (ids r.fills).Nodup := by
  simp only [readable, OrderRecord.validates, ids, Bool.not_true, Bool.false_or, Bool.and_eq_true, decide_eq_true_eq]
  tauto

/-- A new fill on a whole record leaves a record that loads. -/
theorem readable_withFill (hreadable : readable durable r) (hnew : d.fill.fillId ∉ ids r.fills) (hwhole : Whole durable r) :
    readable durable (withFill r d.fill d.now) := by
  cases durable with
  | false => rfl
  | true =>
      obtain ⟨⟨hnonneg, hleverage, hagree⟩, hnodup⟩ := readable_true_iff.mp hreadable
      have hsum : OrderRecord.fillTotal r.fills = r.filledQuantity := by
        by_cases hfills : r.fills = []
        · rw [hfills, (hwhole rfl).resolve_left (not_not.mpr hfills)]
          rfl
        · exact fillsAgree_iff.mp hagree hfills
      refine readable_true_iff.mpr ⟨⟨add_nonneg hnonneg d.fill.quantity_pos.le, hleverage, ?_⟩, ?_⟩
      · refine fillsAgree_iff.mpr fun _ => ?_
        change OrderRecord.fillTotal (r.fills ++ [d.fill]) = r.filledQuantity + d.fill.quantity
        rw [fillTotal_concat, hsum]
      · change (ids (r.fills ++ [d.fill])).Nodup
        rw [ids, List.map_append, List.nodup_append]
        refine ⟨hnodup, List.nodup_singleton _, fun a ha b hb => ?_⟩
        cases List.mem_singleton.mp hb
        exact fun he => hnew (he ▸ ha)

/-- What the order shows once these new fills are booked on it. -/
def booked (r : OrderRecord) (fills : List OrderFill) : Tally :=
  let total := r.filledQuantity + OrderRecord.fillTotal fills
  if fills = [] then tally r else ⟨fillTarget r total, total, averageOf (r.fills ++ fills) total, r.fills ++ fills⟩

theorem booked_withFill (r : OrderRecord) (fill : OrderFill) (now : Timestamp) (fills : List OrderFill) :
    booked (withFill r fill now) fills = booked r (fill :: fills) := by
  have hsum : r.filledQuantity + fill.quantity + OrderRecord.fillTotal fills =
      r.filledQuantity + OrderRecord.fillTotal (fill :: fills) := add_assoc _ _ _
  have hfills : (r.fills ++ [fill]) ++ fills = r.fills ++ fill :: fills := by simp
  rw [booked, booked, if_neg (List.cons_ne_nil fill fills), ← hsum, ← hfills]
  by_cases hnil : fills = []
  · rw [if_pos hnil, hnil, List.append_nil]
    change tally (withFill r fill now) = ⟨fillTarget r (r.filledQuantity + fill.quantity + 0),
      r.filledQuantity + fill.quantity + 0, averageOf (r.fills ++ [fill]) (r.filledQuantity + fill.quantity + 0), _⟩
    rw [add_zero]
    rfl
  · rw [if_neg hnil]
    rfl

theorem fillTotal_pos {fills : List OrderFill} (h : fills ≠ []) : 0 < OrderRecord.fillTotal fills := by
  cases fills with
  | nil => exact absurd rfl h
  | cons f fs =>
      change 0 < f.quantity + OrderRecord.fillTotal fs
      exact add_pos_of_pos_of_nonneg f.quantity_pos (fillTotal_nonneg fs)

/-- A fill that leaves something open leaves the order taking fills. -/
theorem takes_withFill {fill : OrderFill} {now : Timestamp} (h : r.filledQuantity + fill.quantity < r.intent.quantity) :
    Takes (withFill r fill now) := by
  have hstate : (withFill r fill now).state = .partiallyFilled := if_neg h.ne
  rw [Takes, hstate]
  rfl

theorem ids_withFill (r : OrderRecord) (fill : OrderFill) (now : Timestamp) :
    ids (withFill r fill now).fills = ids r.fills ++ [fill.fillId] := by
  simp [ids, withFill]

/-- Of fills that fit, the first lands, and the others fit after it. -/
theorem lands_first {fill : OrderFill} {rest : List OrderFill} (htakes : Takes r)
    (hfits : r.filledQuantity + OrderRecord.fillTotal (fill :: rest) ≤ r.intent.quantity) :
    Lands r fill ∧ r.filledQuantity + fill.quantity + OrderRecord.fillTotal rest ≤ r.intent.quantity := by
  have hrest : 0 ≤ OrderRecord.fillTotal rest := fillTotal_nonneg _
  change r.filledQuantity + (fill.quantity + _) ≤ _ at hfits
  rw [← add_assoc] at hfits
  exact ⟨lands_iff.mpr ⟨(le_add_of_nonneg_right hrest).trans hfits, htakes⟩, hfits⟩

/-- An order that loads and takes fills ends with the new ones booked, each once. -/
theorem run_booked {ds : List Delivery} (hr : s.find? orderId = some r) (hreadable : readable durable r)
    (htakes : news (ids r.fills) ds ≠ [] → Takes r)
    (hfits : r.filledQuantity + OrderRecord.fillTotal (news (ids r.fills) ds) ≤ r.intent.quantity)
    (hsound : Along (deliver orderId) (Sound orderId) s ds) :
    ((run (deliver orderId) s ds).find? orderId).map tally = some (booked r (news (ids r.fills) ds)) := by
  induction ds generalizing s r with
  | nil =>
      change (s.find? orderId).map tally = _
      rw [hr]
      rfl
  | cons d ds ih =>
      change ((run (deliver orderId) (attempt (deliver orderId) s d) ds).find? orderId).map tally = _
      rw [news] at htakes hfits ⊢
      by_cases hknown : d.fill.fillId ∈ ids r.fills
      · rw [if_pos hknown] at htakes hfits ⊢
        have hstays : ¬ (readable durable r ∧ Lands r d.fill) := fun h => (hsound.1 r hr h.2).1 hknown
        obtain ⟨r', hr', _, _, _, _, rfl⟩ := deliver_stays hr hstays
        have hrest := ih hr'
        exact hrest hreadable htakes hfits hsound.2
      · rw [if_neg hknown] at htakes hfits ⊢
        obtain ⟨hlands, hfits⟩ := lands_first (htakes (List.cons_ne_nil _ _)) hfits
        have hnext := readable_withFill hreadable hknown (hsound.1 r hr hlands).2
        rw [← booked_withFill r d.fill d.now]
        rw [← ids_withFill r d.fill d.now] at hfits ⊢
        refine ih (deliver_lands hr hreadable hlands) hnext (fun hne => takes_withFill ?_) hfits hsound.2
        exact (lt_add_of_pos_right _ (fillTotal_pos hne)).trans_le hfits

/-- Any other order stays as it is. -/
theorem run_untaken {ds : List Delivery} (hr : s.find? orderId = some r) (hstays : ¬ (readable durable r ∧ Takes r)) :
    ((run (deliver orderId) s ds).find? orderId).map tally = some (tally r) := by
  induction ds generalizing s r with
  | nil =>
      change (s.find? orderId).map tally = _
      rw [hr]
      rfl
  | cons d ds ih =>
      change ((run (deliver orderId) (attempt (deliver orderId) s d) ds).find? orderId).map tally = _
      have hunlanded : ¬ (readable durable r ∧ Lands r d.fill) := fun h => hstays ⟨h.1, (lands_iff.mp h.2).2⟩
      obtain ⟨r', hr', _, _, _, _, rfl⟩ := deliver_stays hr hunlanded
      have hrest := ih hr'
      exact hrest hstays

/-- Fills with ids of their own are all new. -/
theorem news_of_distinct {known : List String} {ds : List Delivery} (hnodup : (ids (ds.map Delivery.fill)).Nodup)
    (hnew : ∀ d ∈ ds, d.fill.fillId ∉ known) : news known ds = ds.map Delivery.fill := by
  induction ds generalizing known with
  | nil => rfl
  | cons d ds ih =>
      obtain ⟨hfirst, hrest⟩ := List.nodup_cons.mp hnodup
      rw [news, if_neg (hnew d (List.mem_cons_self ..)), ih hrest, List.map_cons]
      intro e he hknown
      rcases List.mem_append.mp hknown with h | h
      · exact hnew e (List.mem_cons_of_mem _ he) h
      · rw [List.mem_singleton] at h
        exact hfirst (h ▸ List.mem_map_of_mem (List.mem_map_of_mem he))

theorem news_spec (known : List String) (ds : List Delivery) :
    (ids (news known ds)).Nodup ∧ ∀ f ∈ news known ds, f.fillId ∉ known := by
  induction ds generalizing known with
  | nil => exact ⟨List.nodup_nil, fun _ h => absurd h List.not_mem_nil⟩
  | cons d ds ih =>
      rw [news]
      split
      · exact ih known
      · rename_i hunknown
        obtain ⟨hnodup, hnew⟩ := ih (known ++ [d.fill.fillId])
        refine ⟨List.nodup_cons.mpr ⟨fun h => ?_, hnodup⟩, fun f hf => ?_⟩
        · obtain ⟨f, hf, he⟩ := List.mem_map.mp h
          exact hnew f hf (List.mem_append_right _ (by simp [he]))
        · rcases List.mem_cons.mp hf with rfl | hf
          · exact hunknown
          · exact fun hknown => hnew f hf (List.mem_append_left _ hknown)

/-- Fills with ids of their own, on an order that shows no adopted total, are soundly delivered. -/
theorem along_of_distinct {ds : List Delivery} (hr : s.find? orderId = some r) (hwhole : Whole durable r)
    (hnodup : (ids (ds.map Delivery.fill)).Nodup) (hnew : ∀ d ∈ ds, d.fill.fillId ∉ ids r.fills) :
    Along (deliver orderId) (Sound orderId) s ds := by
  induction ds generalizing s r with
  | nil => trivial
  | cons d ds ih =>
      obtain ⟨hfirst, hrest⟩ := List.nodup_cons.mp hnodup
      have hlater : ∀ e ∈ ds, e.fill.fillId ∉ ids r.fills := fun e he => hnew e (List.mem_cons_of_mem _ he)
      constructor
      · intro r' hr' _
        cases hr.symm.trans hr'
        exact ⟨hnew d (List.mem_cons_self ..), hwhole⟩
      · by_cases hlands : readable durable r ∧ Lands r d.fill
        · refine ih (deliver_lands hr hlands.1 hlands.2) ?_ hrest fun e he hknown => ?_
          · exact fun _ => .inl (by simp [withFill])
          · rw [ids_withFill] at hknown
            rcases List.mem_append.mp hknown with h | h
            · exact hlater e he h
            · rw [List.mem_singleton] at h
              exact hfirst (h ▸ List.mem_map_of_mem (List.mem_map_of_mem he))
        · obtain ⟨r', hr', _, _, _, _, rfl⟩ := deliver_stays hr hlands
          have hnext := ih hr'
          exact hnext hwhole hrest hlater

/-- The first new fill of a sound delivery meets no adopted total. -/
theorem whole_of_along {ds : List Delivery} (hr : s.find? orderId = some r) (hreadable : readable durable r)
    (htakes : Takes r) (hnews : news (ids r.fills) ds ≠ [])
    (hfits : r.filledQuantity + OrderRecord.fillTotal (news (ids r.fills) ds) ≤ r.intent.quantity)
    (hsound : Along (deliver orderId) (Sound orderId) s ds) : Whole durable r := by
  induction ds generalizing s r with
  | nil => exact absurd rfl hnews
  | cons d ds ih =>
      rw [news] at hnews hfits
      by_cases hknown : d.fill.fillId ∈ ids r.fills
      · rw [if_pos hknown] at hnews hfits
        have hstays : ¬ (readable durable r ∧ Lands r d.fill) := fun h => (hsound.1 r hr h.2).1 hknown
        obtain ⟨r', hr', _, _, _, _, rfl⟩ := deliver_stays hr hstays
        have hrest := ih hr'
        exact hrest hreadable htakes hnews hfits hsound.2
      · rw [if_neg hknown] at hfits
        exact (hsound.1 r hr (lands_first htakes hfits).1).2

theorem fillTotal_perm {fills fills' : List OrderFill} (h : fills.Perm fills') :
    OrderRecord.fillTotal fills = OrderRecord.fillTotal fills' :=
  (h.map OrderFill.quantity).sum_eq

theorem fillNotional_perm {fills fills' : List OrderFill} (h : fills.Perm fills') :
    OrderRecord.fillNotional fills = OrderRecord.fillNotional fills' :=
  (h.map fun f : OrderFill => f.price * f.quantity).sum_eq

/-- The order in which the new fills are booked does not show. -/
theorem booked_same {fills fills' : List OrderFill} (h : fills.Perm fills') :
    (booked r fills).Same (booked r fills') := by
  have hall : (r.fills ++ fills).Perm (r.fills ++ fills') := h.append_left r.fills
  rw [booked, booked, fillTotal_perm h]
  by_cases hnil : fills = []
  · cases hnil
    rw [if_pos rfl, if_pos h.nil_eq.symm]
    exact ⟨rfl, rfl, rfl, .refl _⟩
  · rw [if_neg hnil, if_neg fun hnil' : fills' = [] => hnil (List.Perm.eq_nil (hnil' ▸ h))]
    exact ⟨rfl, rfl, by simp only [averageOf, fillNotional_perm hall], hall⟩

end Deliveries

/-- Two stores show the same executions for the order. -/
def SameExecutions (orderId : String) (s t : RecordStore durable) : Prop :=
  ∃ a ∈ (s.find? orderId).map tally, ∃ b ∈ (t.find? orderId).map tally, a.Same b

def acceptedOrder : RecordStore true := run examplePerform empty acceptedRun

def halfDelivery : Delivery := ⟨exampleFill (1 / 2) halfUnit_pos, 4⟩

def otherHalf : Delivery := ⟨{ exampleFill (1 / 2) halfUnit_pos with fillId := "other" }, 5⟩

def acceptedRecord : OrderRecord := (acceptedOrder.find? "order-1").get (by decide +kernel)

def fifthDelivery : Delivery := ⟨exampleFill (1 / 5) fifthUnit_pos, 4⟩

end Aetheris.OrderRedelivery
