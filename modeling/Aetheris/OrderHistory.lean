import Aetheris.OrderWrites
import Aetheris.Execution

namespace Aetheris.OrderHistory

open Lib Money Clock Enums OrderRecords OrderMachine OrderStore OrderEngine OrderCalls OrderWrites RecordStore
open OrderIdentity Transaction

structure Bounded (r : OrderRecord) : Prop where
  nonneg : 0 ≤ r.filledQuantity
  le_quantity : r.filledQuantity ≤ r.intent.quantity

def execution (r : OrderRecord) (h : Bounded r) : Execution Decimal :=
  ⟨r.intent.quantity, r.filledQuantity, r.isTerminal, h.nonneg, h.le_quantity⟩

/-- The same record but for discrepancies added at the end and the notes of a reconciliation. -/
def Annotated (r r' : OrderRecord) : Prop :=
  ∃ detail reconciledAt updatedAt more, r' = { r with
    reconciliationDetail := detail
    lastReconciledAt := reconciledAt
    updatedAt := updatedAt
    discrepancies := r.discrepancies ++ more }

structure Follows (r r' : OrderRecord) : Prop where
  intent : r'.intent = r.intent
  filled_le : r.filledQuantity ≤ r'.filledQuantity
  settled : r.isTerminal → Annotated r r'

theorem Annotated.trans {a b c : OrderRecord} (h : Annotated a b) (h' : Annotated b c) : Annotated a c := by
  obtain ⟨_, _, _, more, rfl⟩ := h
  obtain ⟨detail, reconciledAt, updatedAt, more', rfl⟩ := h'
  exact ⟨detail, reconciledAt, updatedAt, more ++ more', by simp⟩

instance : Trans Follows Follows Follows where
  trans {a b c} h h' := by
    refine ⟨h'.intent.trans h.intent, h.filled_le.trans h'.filled_le, fun ha => ?_⟩
    have hab := h.settled ha
    refine hab.trans (h'.settled ?_)
    obtain ⟨_, _, _, _, rfl⟩ := hab
    exact ha

theorem execution_mono {r r' : OrderRecord} (h : Follows r r') (hr : Bounded r) (hr' : Bounded r') :
    execution r hr ≤ execution r' hr' := by
  refine ⟨by simp [execution, h.intent], h.filled_le, fun hf => ?_⟩
  obtain ⟨_, _, _, _, rfl⟩ := h.settled hf
  rfl

theorem withDiscrepancy_annotated (r : OrderRecord) (detail : String) (now : Timestamp) :
    Annotated r (withDiscrepancy r detail now) :=
  ⟨r.reconciliationDetail, some now, now, [⟨now, detail, r.state, none⟩], rfl⟩

theorem withNote_annotated (r : OrderRecord) (detail : String) (now : Timestamp) :
    Annotated r (withNote r detail now) :=
  ⟨some detail, some now, now, [], by simp [withNote]⟩

theorem withUnreadable_annotated (r : OrderRecord) (detail : String) (now : Timestamp) :
    Annotated r (withUnreadable r detail now) :=
  ⟨r.reconciliationDetail, r.lastReconciledAt, r.updatedAt, [⟨now, detail, r.state, none⟩], rfl⟩

theorem Bounded.of_eq {r r' : OrderRecord} (h : Bounded r) (hi : r'.intent = r.intent)
    (hf : r'.filledQuantity = r.filledQuantity) : Bounded r' :=
  ⟨by rw [hf]; exact h.nonneg, by rw [hf, hi]; exact h.le_quantity⟩

theorem applies_annotated {decision : ReconciliationDecision} {now : Timestamp} {r r' : OrderRecord}
    (h : Applies decision now r r') (ht : r.isTerminal) : Annotated r r' := by
  cases h with
  | disputed => exact withDiscrepancy_annotated r (discrepancyText decision) now
  | unanswered | repeated => exact withNote_annotated r decision.detail now
  | moved target _ _ _ _ hc =>
      rw [not_canTransition_of_terminal ht] at hc
      cases hc

/-- Nothing the machine moves was terminal, so a terminal record is only annotated. -/
theorem write_annotated {op : Operation} {r r' : OrderRecord} (h : Write op r r') (ht : r.isTerminal) :
    Annotated r r' := by
  have hstuck : ∀ target, ¬ canTransition r.state target := by
    intro target hc
    rw [not_canTransition_of_terminal ht] at hc
    cases hc
  cases h with
  | validating hc | riskRejected hc | cancelled _ hc | submitting hc | acknowledged hc | unknown hc
  | filled _ hc | attempted hc | resolved _ hc | interrupted _ hc => exact absurd hc (hstuck _)
  | reopened hs =>
      rw [OrderRecord.isTerminal, hs] at ht
      cases ht
  | @overfilled _ _ now detail => exact withDiscrepancy_annotated r detail now
  | @damaged _ now detail => exact withUnreadable_annotated r detail now
  | reconciled happly | applied happly => exact applies_annotated happly ht

theorem bounded_build [Runtime] (orderId : String) (intent : OrderIntent) : Bounded (build orderId intent) :=
  ⟨le_refl 0, intent.quantity_pos.le⟩

theorem decidedTotal_bounds {r : OrderRecord} (venueView : Option VenueOrderView) (venueReachable : Bool)
    (hr : Bounded r) :
    r.filledQuantity ≤ (Reconcile.decide r venueView venueReachable).filledQuantity.getD r.filledQuantity ∧
      (Reconcile.decide r venueView venueReachable).filledQuantity.getD r.filledQuantity ≤ r.intent.quantity := by
  cases hq : (Reconcile.decide r venueView venueReachable).filledQuantity with
  | none => exact ⟨le_refl _, hr.le_quantity⟩
  | some q => exact Reconcile.decide_filledQuantity hq

theorem applies_grows {r r' : OrderRecord} {venueView : Option VenueOrderView} {venueReachable : Bool}
    {now : Timestamp} (h : Applies (Reconcile.decide r venueView venueReachable) now r r') (hr : Bounded r) :
    Bounded r' ∧ r.filledQuantity ≤ r'.filledQuantity := by
  cases h with
  | disputed | unanswered | repeated => exact ⟨hr.of_eq rfl rfl, le_refl _⟩
  | moved =>
      obtain ⟨hgrow, hle⟩ := decidedTotal_bounds venueView venueReachable hr
      exact ⟨⟨hr.nonneg.trans hgrow, hle⟩, hgrow⟩

/-- Decisions handed straight to `apply_reconciliation` need not come from `decide`. -/
def fromDecide : Operation → Bool
  | .applyReconciliation .. => false
  | _ => true

theorem write_grows {op : Operation} {r r' : OrderRecord} (h : Write op r r') (hd : fromDecide op)
    (hr : Bounded r) : Bounded r' ∧ r.filledQuantity ≤ r'.filledQuantity := by
  cases h with
  | validating | riskRejected | cancelled | submitting | acknowledged | unknown | overfilled | attempted
  | reopened | resolved | interrupted | damaged => exact ⟨hr.of_eq rfl rfl, le_refl _⟩
  | @filled _ fill _ hle =>
      have hgrow : r.filledQuantity ≤ r.filledQuantity + fill.quantity :=
        le_add_of_nonneg_right fill.quantity_pos.le
      exact ⟨⟨hr.nonneg.trans hgrow, hle⟩, hgrow⟩
  | reconciled happly => exact applies_grows happly hr
  | applied => cases hd

theorem applies_intent {decision : ReconciliationDecision} {now : Timestamp} {r r' : OrderRecord}
    (h : Applies decision now r r') : r'.intent = r.intent := by
  cases h <;> rfl

theorem write_intent {op : Operation} {r r' : OrderRecord} (h : Write op r r') : r'.intent = r.intent := by
  cases h <;> first | rfl | exact applies_intent ‹_›

theorem write_follows {op : Operation} {r r' : OrderRecord} (h : Write op r r') (hd : fromDecide op)
    (hr : Bounded r) : Bounded r' ∧ Follows r r' := by
  obtain ⟨hbounded, hgrow⟩ := write_grows h hd hr
  exact ⟨hbounded, write_intent h, hgrow, write_annotated h⟩

variable {durable : Bool} {s t : RecordStore durable}

/-- `new_order_id` never repeats itself. -/
def Fresh (s : RecordStore durable) (op : Operation) : Prop :=
  ∀ built ∈ op.builds, s.find? built.1 = none

instance (s : RecordStore durable) (op : Operation) : Decidable (Fresh s op) :=
  inferInstanceAs (Decidable (∀ built ∈ op.builds, s.find? built.1 = none))

structure History (s : RecordStore durable) : Prop where
  bounded : ∀ r ∈ s.stored, Bounded r
  chain : ∀ orderId, (s.versions orderId).IsChain Follows

theorem History.put {r : OrderRecord} (h : History s) (hr : Bounded r)
    (hf : ∀ b, s.find? r.orderId = some b → Follows b r) : History (s.put r) := by
  refine ⟨?_, fun orderId => VersionedTable.versions_put h.chain hf orderId⟩
  intro b hb
  rw [stored_put, List.mem_append, List.mem_singleton] at hb
  rcases hb with hb | rfl
  · exact h.bounded b hb
  · exact hr

theorem history_empty : History (empty : RecordStore durable) :=
  ⟨fun _ hr => absurd hr (List.not_mem_nil), fun _ => .nil⟩

/-- Each order's versions, as its owner sees them, only move forward. -/
theorem executions_sorted (h : History s) (orderId : String) :
    ((s.versions orderId).pmap execution
      (fun r hr => h.bounded r (Lib.mem_versions.mp hr).1)).Pairwise (· ≤ ·) := by
  have hp : (s.versions orderId).Pairwise Follows := List.isChain_iff_pairwise.mp (h.chain orderId)
  rw [List.pairwise_pmap]
  exact hp.imp (fun hf hr hr' => execution_mono hf hr hr')

section

variable [Runtime]

theorem writes_history {op : Operation} (h : Writes op s t) (hd : fromDecide op) (hfresh : Fresh s op)
    (hs : History s) : History t := by
  induction h with
  | done => exact hs
  | built hb _ _ =>
      refine hs.put (bounded_build _ _) ?_
      intro b hf
      cases (hfresh _ hb).symm.trans hf
  | @written s t r r' hr hw _ ih =>
      obtain ⟨hb, hf⟩ := write_follows hw hd (hs.bounded r (mem_stored_of_find? hr))
      refine ih ?_ (hs.put hb ?_)
      · intro built hbuild
        cases hw <;> cases hbuild
      · intro b hfind
        rw [hw.orderId] at hfind
        cases hr.symm.trans hfind
        exact hf

theorem run_history {ops : List Operation} (h : Along perform (fun s op => Fresh s op ∧ fromDecide op) s ops)
    (hs : History s) : History (run perform s ops) :=
  run_invariant (fun _ _ _ hI ha hp => writes_history (perform_writes hp) ha.2 ha.1 hI) h hs

end

def completedRun : List Operation :=
  exampleSubmission ++
    [.applyVenueAck "order-1" "v1" .accepted 3, .applyFill "order-1" (exampleFill 1 wholeUnit_pos) 4,
      .markUnknown "order-1" "late" 5]

end Aetheris.OrderHistory
