import Aetheris.MirroredWrites
import Mathlib.Algebra.BigOperators.Ring.List
import Mathlib.Algebra.Order.BigOperators.Group.List

namespace Aetheris.MirroredCalls

open Lib Paired Money Clock Enums OrderRecords OrderMachine OrderStore OrderEngine OrderTables OrderMirror
open MirroredWrites
open OrderIdentity (Runtime clientOrderId)

variable {durable : Bool} {uuid : String → Option String} {accountId : String} {owner : String → String}
  {s : RecordStore durable} {t : PostgresTables uuid accountId} {r w w' : OrderRecord}

/-! ### Versions that both stores take -/

/-- What a call stores over a version, on either side. -/
structure Stores (accountId : String) (owner : String → String) (r w w' : OrderRecord) : Prop where
  revises : Revises r w
  sound : Sound accountId owner w
  same : Same w w'

/-- A write that leaves the children of a record and its numbers as they are. -/
structure Plain (write : OrderRecord → OrderRecord) : Prop where
  revises : ∀ r, Revises r (write r)
  sound : ∀ accountId owner r, Sound accountId owner r → Sound accountId owner (write r)
  same : ∀ r r', Same r r' → Same (write r) (write r')

theorem Plain.stores {write : OrderRecord → OrderRecord} (h : Plain write) {r' : OrderRecord}
    (hr : Sound accountId owner r) (hsame : Same r r') : Stores accountId owner r (write r) (write r') :=
  ⟨h.revises r, h.sound accountId owner r hr, h.same r r' hsame⟩

theorem revises_kept (hid : w.orderId = r.orderId) (hclient : w.clientOrderId = r.clientOrderId)
    (hfills : w.fills = r.fills) (hdiscrepancies : r.discrepancies ⊆ w.discrepancies) : Revises r w :=
  ⟨hid, hclient, .inl (by rw [hfills]; exact List.Subset.refl _), hdiscrepancies⟩

section Plain

variable (now : Timestamp)

theorem plain_withMove (target : OrderState) (submittedAt : Option Timestamp) :
    Plain fun r => withMove r target now submittedAt where
  revises _ := revises_kept rfl rfl rfl (List.Subset.refl _)
  sound _ _ _ h := { h with }
  same := fun _ _ ⟨hfills, hdiscrepancies⟩ => .intro hfills hdiscrepancies

theorem plain_withRiskRejection (code : RiskRejectionCode) (detail : String) :
    Plain fun r => withRiskRejection r code detail now where
  revises _ := revises_kept rfl rfl rfl (List.Subset.refl _)
  sound _ _ _ h := { h with }
  same := fun _ _ ⟨hfills, hdiscrepancies⟩ => .intro hfills hdiscrepancies

theorem plain_withCancellation (reason : String) : Plain fun r => withCancellation r reason now where
  revises _ := revises_kept rfl rfl rfl (List.Subset.refl _)
  sound _ _ _ h := { h with }
  same := fun _ _ ⟨hfills, hdiscrepancies⟩ => .intro hfills hdiscrepancies

theorem plain_withUnknown (reason : String) : Plain fun r => withUnknown r reason now where
  revises _ := revises_kept rfl rfl rfl (List.Subset.refl _)
  sound _ _ _ h := { h with }
  same := fun _ _ ⟨hfills, hdiscrepancies⟩ => .intro hfills hdiscrepancies

theorem plain_withAttempt : Plain fun r => withAttempt r now where
  revises _ := revises_kept rfl rfl rfl (List.Subset.refl _)
  sound _ _ _ h := { h with }
  same := fun _ _ ⟨hfills, hdiscrepancies⟩ => .intro hfills hdiscrepancies

theorem plain_withNote (detail : String) : Plain fun r => withNote r detail now where
  revises _ := revises_kept rfl rfl rfl (List.Subset.refl _)
  sound _ _ _ h := { h with }
  same := fun _ _ ⟨hfills, hdiscrepancies⟩ => .intro hfills hdiscrepancies

theorem plain_withResolution (toState : OrderState) (operator reason : String) :
    Plain fun r => withResolution r toState operator reason now where
  revises _ := revises_kept rfl rfl rfl (List.Subset.refl _)
  sound _ _ _ h := { h with }
  same := fun _ _ ⟨hfills, hdiscrepancies⟩ => .intro hfills hdiscrepancies

end Plain

/-! ### The average of the fills -/

/-- The greatest value that a `NUMERIC(24, 8)` column holds. -/
def numericMax : Decimal := numericLimit - 1 / usdtUnits

theorem eightPlaces_numericMax : EightPlaces numericMax :=
  ⟨999999999999999999999999, by norm_num [numericMax, numericLimit, usdtUnits]⟩

theorem le_numericMax {value : Decimal} (h : Fits value) : value ≤ numericMax := by
  refine FixedPoint.Grid.le_of_lt usdtUnits_pos h.1 eightPlaces_numericMax ?_
  rw [numericMax, sub_add_cancel]
  exact (le_abs_self value).trans_lt h.2

theorem fits_of_le_numericMax {value : Decimal} (hplaces : EightPlaces value) (hnonneg : 0 ≤ value)
    (h : value ≤ numericMax) : Fits value := by
  refine ⟨hplaces, ?_⟩
  rw [abs_of_nonneg hnonneg]
  refine h.trans_lt ?_
  norm_num [numericMax, numericLimit, usdtUnits]

theorem fillNotional_nonneg (fills : List OrderFill) : 0 ≤ OrderRecord.fillNotional fills := by
  refine List.sum_nonneg fun x hx => ?_
  obtain ⟨f, -, rfl⟩ := List.mem_map.mp hx
  exact (mul_pos f.price_pos f.quantity_pos).le

theorem fillNotional_le {fills : List OrderFill} {bound : Decimal} (h : ∀ f ∈ fills, f.price ≤ bound) :
    OrderRecord.fillNotional fills ≤ bound * OrderRecord.fillTotal fills := by
  rw [OrderRecord.fillNotional, OrderRecord.fillTotal, ← List.sum_map_mul_left]
  refine List.sum_le_sum fun f hf => ?_
  exact mul_le_mul_of_nonneg_right (h f hf) f.quantity_pos.le

/-- The average price of fills that fit is one that fits. -/
theorem average_fits {fills : List OrderFill} {total : Decimal} (h : ∀ f ∈ fills, FillFits f)
    (htotal : OrderRecord.fillTotal fills = total) : ∀ p ∈ averageOf fills total, Fits p := by
  intro p hp
  unfold averageOf at hp
  split at hp
  · rename_i hpos
    cases hp
    have hle : OrderRecord.fillNotional fills / total ≤ numericMax := by
      rw [div_le_iff₀ hpos, ← htotal]
      exact fillNotional_le fun f hf => le_numericMax (h f hf).price
    have hnonneg := quantizeUsdt_nonneg (div_nonneg (fillNotional_nonneg fills) hpos.le)
    refine fits_of_le_numericMax (eightPlaces_quantizeUsdt _) hnonneg ?_
    rw [← quantizeUsdt_of_eightPlaces eightPlaces_numericMax]
    exact quantizeUsdt_mono hle
  · cases hp

theorem averageOf_perm {fills fills' : List OrderFill} (h : fills'.Perm fills) (total : Decimal) :
    averageOf fills' total = averageOf fills total := by
  have hnotional : OrderRecord.fillNotional fills' = OrderRecord.fillNotional fills := (h.map _).sum_eq
  rw [averageOf, averageOf, hnotional]

theorem nodup_snoc {α : Type} {xs : List α} {a : α} (h : xs.Nodup) (ha : a ∉ xs) : (xs ++ [a]).Nodup := by
  rw [← List.concat_eq_append]
  exact h.concat ha

section Versions

variable {r' : OrderRecord} {now : Timestamp} (hr : Sound accountId owner r) (hsame : Same r r')

include hr hsame

theorem stores_withAck {venueOrderId : String} (hvenue : owner venueOrderId = r.orderId) (state : OrderState) :
    Stores accountId owner r (withAck r venueOrderId state now) (withAck r' venueOrderId state now) := by
  obtain ⟨hfills, hdiscrepancies⟩ := hsame
  refine ⟨revises_kept rfl rfl rfl (List.Subset.refl _), { hr with venue := ?_ }, .intro hfills hdiscrepancies⟩
  rintro v hv
  cases hv
  exact hvenue

/-- The note is one that the order does not have yet. -/
def FreshNote (r : OrderRecord) (detail : String) (now : Timestamp) : Prop :=
  (now, detail) ∉ r.discrepancies.map noteKey

theorem stores_withDiscrepancy {detail : String} (hfresh : FreshNote r detail now) :
    Stores accountId owner r (withDiscrepancy r detail now) (withDiscrepancy r' detail now) := by
  obtain ⟨hfills, hdiscrepancies⟩ := hsame
  refine ⟨revises_kept rfl rfl rfl (List.subset_append_left _ _), { hr with notes := ?_ },
    .intro hfills (hdiscrepancies.append_right _)⟩
  have hnotes : (withDiscrepancy r detail now).discrepancies.map noteKey =
      r.discrepancies.map noteKey ++ [(now, detail)] := List.map_append
  rw [hnotes]
  exact nodup_snoc hr.notes hfresh

/-- A fill under ids that the order does not have yet, over fills that make up its total. -/
structure Lands (r : OrderRecord) (fill : OrderFill) : Prop where
  id : fill.fillId ∉ r.fills.map OrderFill.fillId
  tradeId : ∀ v ∈ fill.venueTradeId, v ∉ r.fills.filterMap OrderFill.venueTradeId
  total : r.fills = [] → r.filledQuantity = 0

omit hsame in
theorem Lands.fillTotal {fill : OrderFill} (h : Lands r fill) :
    OrderRecord.fillTotal (r.fills ++ [fill]) = r.filledQuantity + fill.quantity := by
  have hfilled : OrderRecord.fillTotal r.fills = r.filledQuantity := by
    by_cases hnil : r.fills = []
    · rw [h.total hnil, hnil]
      rfl
    · exact hr.total hnil
  rw [← hfilled, OrderRecord.fillTotal, List.map_append, List.sum_append]
  simp [OrderRecord.fillTotal]

theorem stores_withFill {fill : OrderFill} (hfits : FillFits fill)
    (hwithin : r.filledQuantity + fill.quantity ≤ r.intent.quantity) (hlands : Lands r fill) :
    Stores accountId owner r (withFill r fill now) (withFill r' fill now) := by
  have hfills : ∀ f ∈ r.fills ++ [fill], FillFits f := by
    intro f hf
    rcases List.mem_append.mp hf with hf | hf
    · exact hr.fills f hf
    · rw [List.mem_singleton.mp hf]
      exact hfits
  have htotal := hlands.fillTotal hr
  have hnonneg : 0 ≤ r.filledQuantity + fill.quantity := add_nonneg hr.filled_nonneg fill.quantity_pos.le
  have hplaces : EightPlaces (r.filledQuantity + fill.quantity) := hr.filled.1.add hfits.quantity.1
  refine ⟨⟨rfl, rfl, .inl (List.subset_append_left _ _), List.Subset.refl _⟩, ?_, ?_⟩
  · exact { hr with
      filled := fits_of_le_numericMax hplaces hnonneg (hwithin.trans (le_numericMax hr.quantity))
      average := average_fits hfills htotal
      fills := hfills
      filled_nonneg := hnonneg
      total := fun _ => htotal
      fillIds := by
        change ((r.fills ++ [fill]).map OrderFill.fillId).Nodup
        rw [List.map_append]
        exact nodup_snoc hr.fillIds hlands.id
      tradeIds := by
        change ((r.fills ++ [fill]).filterMap OrderFill.venueTradeId).Nodup
        rw [List.filterMap_append]
        cases hv : fill.venueTradeId with
        | none => simpa [hv] using hr.tradeIds
        | some v => simpa [hv] using nodup_snoc hr.tradeIds (hlands.tradeId v hv) }
  · obtain ⟨hperm, hdiscrepancies⟩ := hsame
    rename_i fills discrepancies
    have haverage := averageOf_perm (hperm.append_right [fill]) (r.filledQuantity + fill.quantity)
    have hwritten : withFill { r with fills := fills, discrepancies := discrepancies } fill now =
        { withFill r fill now with fills := fills ++ [fill], discrepancies := discrepancies } := by
      unfold withFill
      simp only [haverage]
      rfl
    rw [hwritten]
    exact .intro (hperm.append_right _) hdiscrepancies

/-- The numbers and the venue order id that a decision brings. -/
structure Bears (owner : String → String) (r : OrderRecord) (decision : ReconciliationDecision) : Prop where
  filled : ∀ q ∈ decision.filledQuantity, Fits q
  average : decision.filledQuantity.isSome → ∀ p ∈ decision.averageFillPrice, Fits p
  venue : ∀ v ∈ decision.venueOrderId, owner v = r.orderId

theorem stores_withDecision {decision : ReconciliationDecision} (hbears : Bears owner r decision)
    (hnonneg : ∀ q ∈ decision.filledQuantity, 0 ≤ q) (target : OrderState) :
    Stores accountId owner r (withDecision r decision target now) (withDecision r' decision target now) := by
  obtain ⟨hfills, hdiscrepancies⟩ := hsame
  have hvenue : ∀ v ∈ decision.venueOrderId.or r.venueOrderId, owner v = r.orderId := by
    intro v hv
    cases hd : decision.venueOrderId with
    | none =>
        rw [hd] at hv
        exact hr.venue v hv
    | some venueOrderId =>
        rw [hd] at hv
        exact hbears.venue v (hd.trans hv)
  obtain ⟨action, targetState, detail, discrepancy, venueOrderId, filledQuantity, averageFillPrice⟩ := decision
  cases filledQuantity with
  | none =>
      exact ⟨revises_kept rfl rfl rfl (List.Subset.refl _), { hr with venue := hvenue }, .intro hfills hdiscrepancies⟩
  | some q =>
      refine ⟨⟨rfl, rfl, .inr (List.nil_subset _), List.Subset.refl _⟩, ?_, .intro (.refl _) hdiscrepancies⟩
      exact { hr with
        filled := hbears.filled q rfl
        average := hbears.average rfl
        fills := fun f hf => absurd hf List.not_mem_nil
        filled_nonneg := hnonneg q rfl
        total := fun hne => absurd rfl hne
        fillIds := .nil
        tradeIds := .nil
        venue := hvenue }

end Versions

/-! ### Calls -/

section Calls

open PostgresTables (conflict insertRow storeFailure)

variable {orderId : String} {r' : OrderRecord} {now : Timestamp} (hcanonical : uuid accountId = some accountId)
  (h : Mirrors owner s t)

include hcanonical h

theorem put_alike (hr : s.find? orderId = some r) (hstores : Stores accountId owner r w w') :
    Alike (fun s' t' => s' = s.put w ∧ Mirrors owner s' t') (fun a a' => a = w ∧ Same a a')
      (OrderRepository.update w s) (OrderRepository.update w' t) := by
  have hfind : s.find? r.orderId = some r := by rw [RecordStore.orderId_of_find? hr, hr]
  obtain ⟨t', hmemory, htables, hput⟩ :=
    update_mirrors hcanonical h hfind hstores.revises hstores.sound hstores.same
  rw [hmemory, htables]
  exact .returned ⟨rfl, hput⟩ ⟨rfl, hstores.same⟩

theorem update_alike (hr : s.find? orderId = some r) (hstores : Stores accountId owner r w w') :
    Alike (Mirrors owner) Same (OrderRepository.update w s) (OrderRepository.update w' t) :=
  (put_alike hcanonical h hr hstores).mono (fun _ _ hs => hs.2) fun _ _ ha => ha.2

theorem plain_alike {write : OrderRecord → OrderRecord} (hplain : Plain write) (target : OrderState) :
    Alike (Mirrors owner) Same
      (held orderId (fun record => do
        check record.state target orderId
        OrderRepository.update (write record)) s)
      (held orderId (fun record => do
        check record.state target orderId
        OrderRepository.update (write record)) t) := by
  refine held_mirrors h fun r r' hr hsame => ?_
  have hsound := h.sound r (RecordStore.mem_of_find? hr)
  rw [hsame.state]
  exact checked_mirrors fun _ => update_alike hcanonical h hr (hplain.stores hsound hsame)

theorem cancelBeforeSubmission_alike (reason : String) :
    Alike (Mirrors owner) Same (cancelBeforeSubmission orderId reason now s)
      (cancelBeforeSubmission orderId reason now t) := by
  refine held_mirrors h fun r r' hr hsame => ?_
  have hsound := h.sound r (RecordStore.mem_of_find? hr)
  have hreached : r'.reachedVenue = r.reachedVenue := by
    cases hsame
    rfl
  rw [hreached]
  cases r.reachedVenue with
  | true => exact alike_throw _ _
  | false =>
      rw [hsame.state]
      exact checked_mirrors fun _ =>
        update_alike hcanonical h hr ((plain_withCancellation now reason).stores hsound hsame)

theorem applyVenueAck_alike {venueOrderId : String} (hvenue : owner venueOrderId = orderId) (state : OrderState) :
    Alike (Mirrors owner) Same (applyVenueAck orderId venueOrderId state now s)
      (applyVenueAck orderId venueOrderId state now t) := by
  refine held_mirrors h fun r r' hr hsame => ?_
  have hsound := h.sound r (RecordStore.mem_of_find? hr)
  rw [← RecordStore.orderId_of_find? hr] at hvenue
  rw [hsame.state]
  exact checked_mirrors fun _ => update_alike hcanonical h hr (stores_withAck hsound hsame hvenue state)

/-- A fill within what was ordered, that lands where it may. A fill past it is noted with the quantities that are
stored, and those the tables give back with eight decimals. -/
structure AdmitsFill (r : OrderRecord) (fill : OrderFill) : Prop where
  fits : FillFits fill
  within : r.filledQuantity + fill.quantity ≤ r.intent.quantity
  lands : canTransition r.state (fillTarget r (r.filledQuantity + fill.quantity)) → Lands r fill

theorem applyFill_alike {fill : OrderFill} (hfill : ∀ r ∈ s.find? orderId, AdmitsFill r fill) :
    Alike (Mirrors owner) Same (applyFill orderId fill now s) (applyFill orderId fill now t) := by
  refine held_mirrors h fun r r' hr hsame => ?_
  have hsound := h.sound r (RecordStore.mem_of_find? hr)
  obtain ⟨hfits, hwithin, hlands⟩ := hfill r hr
  have hover : ¬ r.intent.quantity < r.filledQuantity + fill.quantity := hwithin.not_gt
  have hquantity : r'.intent.quantity = r.intent.quantity ∧ r'.filledQuantity = r.filledQuantity ∧
      ∀ total, fillTarget r' total = fillTarget r total := by
    cases hsame
    exact ⟨rfl, rfl, fun _ => rfl⟩
  obtain ⟨hordered, hfilled, htarget⟩ := hquantity
  dsimp only
  rw [hordered, hfilled, htarget, hsame.state, if_neg hover, if_neg hover]
  exact checked_mirrors fun hedge =>
    update_alike hcanonical h hr (stores_withFill hsound hsame hfits hwithin (hlands hedge))

/-- A decision that moves the record to another state. -/
def Moves (r : OrderRecord) (decision : ReconciliationDecision) : Prop :=
  decision.action ≠ .recordDiscrepancy ∧ decision.action ≠ .venueUnreachable ∧
    ∃ target ∈ decision.targetState, target ≠ r.state ∧ canTransition r.state target

structure AdmitsDecision (owner : String → String) (r : OrderRecord) (decision : ReconciliationDecision)
    (now : Timestamp) : Prop where
  bears : Bears owner r decision
  note : decision.action = .recordDiscrepancy → FreshNote r (discrepancyText decision) now
  total : Moves r decision → ∀ q ∈ decision.filledQuantity, 0 ≤ q

theorem applyReconciliation_alike {decision : ReconciliationDecision}
    (hdecision : ∀ r ∈ s.find? orderId, AdmitsDecision owner r decision now) :
    Alike (Mirrors owner) Same (applyReconciliation orderId decision now s)
      (applyReconciliation orderId decision now t) := by
  refine held_mirrors h fun r r' hr hsame => ?_
  have hsound := h.sound r (RecordStore.mem_of_find? hr)
  obtain ⟨hbears, hnote, htotal⟩ := hdecision r hr
  have hnoted := update_alike hcanonical h hr ((plain_withNote now decision.detail).stores hsound hsame)
  by_cases hrecord : decision.action = .recordDiscrepancy
  · rw [if_pos hrecord, if_pos hrecord]
    exact update_alike hcanonical h hr (stores_withDiscrepancy hsound hsame (hnote hrecord))
  rw [if_neg hrecord, if_neg hrecord]
  by_cases hunreachable : decision.action = .venueUnreachable
  · rw [if_pos hunreachable, if_pos hunreachable]
    exact hnoted
  rw [if_neg hunreachable, if_neg hunreachable]
  cases htarget : decision.targetState with
  | none => exact alike_pure h hsame
  | some target =>
      dsimp only
      rw [hsame.state]
      by_cases hkept : target = r.state
      · rw [if_pos hkept, if_pos hkept]
        exact hnoted
      · rw [if_neg hkept, if_neg hkept]
        refine checked_mirrors fun hedge => ?_
        have hmoves : Moves r decision := ⟨hrecord, hunreachable, target, htarget, hkept, hedge⟩
        exact update_alike hcanonical h hr (stores_withDecision hsound hsame hbears (htotal hmoves) target)

/-- What a sweep hands over. A total of the venue that is less than the stored one, or more than what was ordered, is
noted with the quantity that is stored, and that one the tables give back with eight decimals. -/
structure AdmitsView (owner : String → String) (r : OrderRecord) (venueView : Option VenueOrderView)
    (venueReachable : Bool) (now : Timestamp) : Prop where
  filled : ∀ view ∈ venueView, Fits view.filledQuantity
  average : ∀ view ∈ venueView, ∀ p ∈ view.averageFillPrice, Fits p
  venue : ∀ view ∈ venueView, ∀ v ∈ view.venueOrderId, owner v = r.orderId
  totals : venueReachable → ∀ view ∈ venueView, r.isTerminal ∧ view.state ≠ r.state ∨
    r.filledQuantity ≤ view.filledQuantity ∧ view.filledQuantity ≤ r.intent.quantity
  note : let decision := Reconcile.decide r venueView venueReachable
    decision.action = .recordDiscrepancy → FreshNote r (discrepancyText decision) now

omit hcanonical h in
theorem decide_same (hsame : Same r r') (venueView : Option VenueOrderView) (venueReachable : Bool) :
    Reconcile.decide r' venueView venueReachable = Reconcile.decide r venueView venueReachable := by
  cases hsame
  rfl

omit hcanonical h in
theorem AdmitsView.bears {venueView : Option VenueOrderView} {venueReachable : Bool}
    (hview : AdmitsView owner r venueView venueReachable now) :
    Bears owner r (Reconcile.decide r venueView venueReachable) := by
  cases venueReachable with
  | false => exact ⟨nofun, nofun, nofun⟩
  | true =>
      cases venueView with
      | none =>
          rw [Reconcile.decide_none]
          split <;> exact ⟨nofun, nofun, nofun⟩
      | some view =>
          by_cases hcontradicts : Reconcile.Contradicts r view
          · obtain ⟨-, -, hfilled, hvenue⟩ := Reconcile.decide_view_of_contradicts hcontradicts
            constructor <;> simp [hfilled, hvenue]
          · rw [Reconcile.decide_view_of_not_contradicts hcontradicts]
            constructor
            case filled =>
              rintro q ⟨⟩
              exact hview.filled view rfl
            case average => exact fun _ => hview.average view rfl
            case venue => exact hview.venue view rfl

theorem reconcile_alike {venueView : Option VenueOrderView} {venueReachable : Bool}
    (hview : ∀ r ∈ s.find? orderId, AdmitsView owner r venueView venueReachable now) :
    Alike (Mirrors owner) (fun _ _ => True) (OrderEngine.reconcile orderId venueView venueReachable now s)
      (OrderEngine.reconcile orderId venueView venueReachable now t) := by
  refine held_mirrors h fun r r' hr hsame => ?_
  have hsound := h.sound r (RecordStore.mem_of_find? hr)
  rw [decide_same hsame]
  refine (applyReconciliation_alike hcanonical h fun q hq => ?_).bind fun _ _ _ _ hs _ => alike_pure hs trivial
  cases hr.symm.trans hq
  constructor
  case bears => exact (hview r hr).bears
  case note => exact (hview r hr).note
  case total => exact fun _ q hq => hsound.filled_nonneg.trans (Reconcile.decide_filledQuantity hq).1

theorem resolution_alike (hr : s.find? orderId = some r) (hsame : Same r r') (toState : OrderState)
    (operator reason : String) :
    Alike (Mirrors owner) Same
      ((do check r.state toState orderId; OrderRepository.update (withResolution r toState operator reason now) :
        OrderM (RecordStore durable) OrderRecord) s)
      ((do check r'.state toState orderId; OrderRepository.update (withResolution r' toState operator reason now) :
        OrderM (PostgresTables uuid accountId) OrderRecord) t) := by
  have hsound := h.sound r (RecordStore.mem_of_find? hr)
  rw [hsame.state]
  exact checked_mirrors fun _ =>
    update_alike hcanonical h hr ((plain_withResolution now toState operator reason).stores hsound hsame)

theorem reopened_alike (hr : s.find? orderId = some r) :
    Alike (fun s' t' => s'.find? orderId = some (withAttempt r now) ∧ Mirrors owner s' t')
      (fun a a' => a = withAttempt r now ∧ Same a a') (beginReconciliation orderId now s)
      (beginReconciliation orderId now t) := by
  refine held_mirrors h fun q r' hq hsame => ?_
  cases hr.symm.trans hq
  have hsound := h.sound r (RecordStore.mem_of_find? hr)
  rw [hsame.state]
  refine checked_mirrors fun _ => (put_alike hcanonical h hr ((plain_withAttempt now).stores hsound hsame)).mono ?_ ?_
  · rintro s' t' ⟨rfl, h'⟩
    refine ⟨?_, h'⟩
    rw [← RecordStore.orderId_of_find? hr]
    exact RecordStore.find?_put_self s (withAttempt r now)
  · exact fun _ _ ha => ha

theorem resolveManually_alike (toState : OrderState) (operator reason : String) :
    Alike (Mirrors owner) Same (resolveManually orderId toState operator reason now s)
      (resolveManually orderId toState operator reason now t) := by
  refine held_mirrors h fun r r' hr hsame => ?_
  have hunreconciled : r'.isUnreconciled = r.isUnreconciled := by
    cases hsame
    rfl
  rw [hunreconciled, hsame.state]
  cases r.isUnreconciled with
  | false => exact alike_throw _ _
  | true =>
      by_cases hunknown : r.state = .unknown
      · simp only [hunknown, if_true]
        refine (reopened_alike hcanonical h hr).bind ?_
        rintro a a' s' t' ⟨hfound, h'⟩ ⟨rfl, hsame'⟩
        exact resolution_alike hcanonical h' hfound hsame' toState operator reason
      · simp only [hunknown, if_false]
        exact resolution_alike hcanonical h hr hsame toState operator reason

omit hcanonical in
/-- Where the client id of a record is taken, neither store adds it. -/
theorem add_taken {R : RecordStore durable → PostgresTables uuid accountId → Prop}
    {Q : OrderRecord → OrderRecord → Prop} {existing : OrderRecord}
    (htaken : s.findByClientId w.clientOrderId = some existing) :
    Alike R Q (OrderRepository.add w s) (OrderRepository.add w t) := by
  have hmemory : OrderRepository.add w s = .error (.duplicateClientOrderId (RecordStore.duplicateMessage w)) := by
    change RecordStore.add w s = _
    unfold RecordStore.add
    simp only [htaken, Option.isSome_some, if_true]
  have hany : (t.orders.any fun row => row.clientOrderId = w.clientOrderId) = true := by
    have hfound := find?_client_mirrors h w.clientOrderId
    rw [htaken] at hfound
    exact List.any_eq_true.mpr ⟨_, List.mem_of_find?_eq_some hfound, by simpa using List.find?_some hfound⟩
  obtain ⟨e, hinsert⟩ : ∃ e, insertRow storeFailure w t = .error e := by
    unfold insertRow conflict
    simp only [hany, if_true]
    cases columns w with
    | none => exact ⟨_, rfl⟩
    | some row => exact ⟨_, rfl⟩
  obtain ⟨e', htables⟩ : ∃ e', OrderRepository.add w t = .error e' := by
    change ∃ e', PostgresTables.add w t = .error e'
    unfold PostgresTables.add
    rcases requireOwnAccount_cases w t with ⟨e', hraised⟩ | hown
    · exact ⟨e', Transaction.bind_of_error hraised⟩
    · rw [Transaction.bind_of_ok hown]
      exact ⟨e, Transaction.bind_of_error hinsert⟩
  rw [hmemory, htables]
  exact .raised _ _

/-- An order that the repository may take in: under an id of its own, for its account, and within its columns. -/
structure NewOrder (accountId : String) (s : RecordStore durable) (orderId : String) (intent : OrderIntent) :
    Prop where
  id : ∀ q ∈ s.rows, q.orderId ≠ orderId
  account : intent.accountId = accountId
  quantity : Fits intent.quantity
  price : ∀ p ∈ intent.price, Fits p

variable [Runtime] {intent : OrderIntent}

omit hcanonical h in
theorem NewOrder.sound (hnew : NewOrder accountId s orderId intent) :
    Sound accountId owner (build orderId intent) where
  account := hnew.account
  created := rfl
  quantity := hnew.quantity
  price := hnew.price
  filled := ⟨FixedPoint.grid_zero, by norm_num [build, numericLimit]⟩
  average := nofun
  leverage := nofun
  fills := fun f hf => absurd hf List.not_mem_nil
  filled_nonneg := le_refl _
  total := fun hne => absurd rfl hne
  fillIds := .nil
  tradeIds := .nil
  notes := .nil
  venue := nofun

theorem create_alike (hnew : s.findByClientId (clientOrderId intent.accountId intent.intentKey) = none →
    NewOrder accountId s orderId intent) :
    Alike (Mirrors owner) Same (create orderId intent s) (create orderId intent t) := by
  cases htaken : s.findByClientId (clientOrderId intent.accountId intent.intentKey) with
  | some existing => exact add_taken h (w := build orderId intent) htaken
  | none =>
      have hfresh := hnew htaken
      obtain ⟨t', hmemory, htables, hput⟩ := add_mirrors hcanonical h (w := build orderId intent) hfresh.id
        (RecordStore.clientOrderId_ne_of_findByClientId htaken) hfresh.sound
      unfold create
      rw [hmemory, htables]
      exact .returned hput (.refl _)

theorem createOrGet_alike (hnew : s.findByClientId (clientOrderId intent.accountId intent.intentKey) = none →
    NewOrder accountId s orderId intent) :
    Alike (Mirrors owner) (fun x x' => Same x.1 x'.1 ∧ x'.2 = x.2) (createOrGet orderId intent s)
      (createOrGet orderId intent t) := by
  obtain ⟨hmemory, found, htables, hrel⟩ : Found s t
      (s.findByClientId (clientOrderId intent.accountId intent.intentKey))
      (RecordStore.getByClientOrderId (build orderId intent).clientOrderId s)
      (PostgresTables.getByClientOrderId (build orderId intent).clientOrderId t) := getByClientOrderId_mirrors h _
  have hadded := create_alike hcanonical h hnew
  change Alike _ _ (RecordStore.addOrGet (build orderId intent) s) (PostgresTables.addOrGet (build orderId intent) t)
  unfold RecordStore.addOrGet PostgresTables.addOrGet
  rw [Transaction.bind_of_ok hmemory, Transaction.bind_of_ok htables]
  cases htaken : s.findByClientId (clientOrderId intent.accountId intent.intentKey) with
  | some existing =>
      rw [htaken] at hrel
      cases hrel with
      | some hsame => exact alike_pure h ⟨hsame, rfl⟩
  | none =>
      rw [htaken] at hrel
      cases hrel
      exact hadded.bind fun _ _ _ _ hs hsame => alike_pure hs ⟨hsame, rfl⟩

end Calls

/-- An order that the recovery sweep leaves as it is. -/
def Quiet (r : OrderRecord) : Prop := r.isUnreconciled ∨ r.reachedVenue = false

theorem Quiet.same {r' : OrderRecord} (h : Quiet r) (hsame : Same r r') : Quiet r' := by
  cases hsame
  exact h

theorem recoverRecords_quiet {σ : Type} [OrderRepository σ] {records : List OrderRecord} (x : σ) (now : Timestamp)
    (report : RecoveryReport) (h : ∀ r ∈ records, Quiet r) :
    ∃ report', recoverRecords now records report x = .ok (report', x) := by
  induction records generalizing report with
  | nil => exact ⟨report, rfl⟩
  | cons r rest ih =>
      have hrest : ∀ q ∈ rest, Quiet q := fun q hq => h q (List.mem_cons_of_mem r hq)
      rw [recoverRecords]
      by_cases hunreconciled : r.isUnreconciled
      · rw [if_pos hunreconciled]
        exact ih _ hrest
      · have hreached := (h r List.mem_cons_self).resolve_left hunreconciled
        rw [if_neg hunreconciled, if_pos (by rw [hreached]; rfl)]
        exact ih _ hrest

/-- The sweep of the development store does nothing; that of the tables does nothing where no order is in flight. -/
theorem recover_alike {s : InMemoryOrderRepository} (h : Mirrors owner s t) (now : Timestamp)
    (hquiet : ∀ r ∈ s.openRows, Quiet r) :
    Alike (Mirrors owner) (fun _ _ => True) (OrderEngine.recover now s) (OrderEngine.recover now t) := by
  obtain ⟨hunreadable, hrecords⟩ := scan_mirrors h
  have hall : ∀ r' ∈ t.scan.records, Quiet r' := by
    intro r' hr'
    obtain ⟨r, hr, hsame⟩ := hrecords r' hr'
    exact (hquiet r hr).same hsame
  obtain ⟨report, hswept⟩ := recoverRecords_quiet t now
    { durable := true, scanned := t.scan.records.length + t.scan.unreadable.length } hall
  have htables : ∃ report', OrderEngine.recover now t = .ok (report', t) := by
    refine ⟨{ report with unreadable := [] }, ?_⟩
    have hscan : OrderRepository.scanOpen t = .ok (t.scan, t) := rfl
    change (do
      let scan ← OrderRepository.scanOpen
      let report ← recoverRecords now scan.records
        { durable := true, scanned := scan.records.length + scan.unreadable.length }
      recoverUnreadable now scan.unreadable
      return { report with unreadable := scan.unreadable.map UnreadableOrder.orderId } :
        OrderM (PostgresTables uuid accountId) RecoveryReport) t = _
    rw [Transaction.bind_of_ok hscan, Transaction.bind_of_ok hswept, hunreadable]
    rfl
  obtain ⟨report', hrecovered⟩ := htables
  rw [hrecovered]
  exact .returned h trivial

end Aetheris.MirroredCalls
