import Aetheris.OrderEngine

namespace Aetheris.OrderCalls

open Lib Money Clock Enums OrderRecords OrderMachine OrderStore OrderEngine RecordStore

variable {durable : Bool} {α : Type}

/-- What a decision stores over the version it was applied to. -/
inductive Applies (decision : ReconciliationDecision) (now : Timestamp) (r : OrderRecord) : OrderRecord → Prop
  | disputed : decision.action = .recordDiscrepancy →
      Applies decision now r (withDiscrepancy r (discrepancyText decision) now)
  | unanswered : decision.action = .venueUnreachable → Applies decision now r (withNote r decision.detail now)
  | repeated : decision.action ≠ .recordDiscrepancy → decision.action ≠ .venueUnreachable →
      decision.targetState = some r.state → Applies decision now r (withNote r decision.detail now)
  | moved (target : OrderState) : decision.action ≠ .recordDiscrepancy →
      decision.action ≠ .venueUnreachable → decision.targetState = some target → target ≠ r.state →
      canTransition r.state target → Applies decision now r (withDecision r decision target now)

def Loads (s : RecordStore durable) (orderId : String) (r : OrderRecord) : Prop :=
  s.find? orderId = some r ∧ readable durable r

def Puts (s : RecordStore durable) (r : OrderRecord) (p : OrderRecord × RecordStore durable) : Prop :=
  s.venueIdTaken r = false ∧ p = (r, s.put r)

theorem Loads.orderId {s : RecordStore durable} {orderId : String} {r : OrderRecord}
    (h : Loads s orderId r) : r.orderId = orderId :=
  orderId_of_find? h.1

theorem Loads.unique {s : RecordStore durable} {orderId : String} {r r' : OrderRecord}
    (h : Loads s orderId r) (h' : Loads s orderId r') : r = r' := by
  have he := h.1.symm.trans h'.1
  simpa using he

theorem loads_put {s : RecordStore durable} {orderId : String} {r : OrderRecord}
    (hid : r.orderId = orderId) (hr : readable durable r) : Loads (s.put r) orderId r :=
  ⟨by rw [← hid, find?_put_self], hr⟩

theorem held_ok {orderId : String} {f : OrderRecord → OrderM (RecordStore durable) α}
    {s : RecordStore durable} {p : α × RecordStore durable} :
    held orderId f s = .ok p ↔ ∃ r, Loads s orderId r ∧ f r s = .ok p := by
  unfold held
  rw [Transaction.bind_ok]
  constructor
  · rintro ⟨found, t, hg, h⟩
    obtain ⟨hr, he⟩ := get_ok.mp hg
    cases he
    cases hf : s.find? orderId with
    | none =>
        rw [hf] at h
        exact absurd h (by simp [Transaction.throw_ok])
    | some r =>
        rw [hf] at h
        exact ⟨r, ⟨hf, hr r hf⟩, h⟩
  · rintro ⟨r, ⟨hf, hr⟩, h⟩
    refine ⟨some r, s, get_ok.mpr ⟨?_, by rw [hf]⟩, h⟩
    intro r' hf'
    cases hf.symm.trans hf'
    exact hr

theorem held_of_loads {orderId : String} (f : OrderRecord → OrderM (RecordStore durable) α)
    {s : RecordStore durable} {r : OrderRecord} (h : Loads s orderId r) : held orderId f s = f r s := by
  have hg : OrderRepository.get orderId s = .ok (some r, s) := by
    refine get_ok.mpr ⟨fun r' hr' => ?_, by rw [h.1]⟩
    cases h.1.symm.trans hr'
    exact h.2
  exact Transaction.bind_of_ok hg

theorem check_ok {current target : OrderState} {orderId : String} {s : RecordStore durable}
    {p : Unit × RecordStore durable} :
    check current target orderId s = .ok p ↔ canTransition current target ∧ p = ((), s) := by
  unfold check checkTransition
  by_cases hc : canTransition current target
  · simp [hc, Transaction.pure_ok]
  · simp [hc, Transaction.throw_ok]

theorem update_held {s : RecordStore durable} {orderId : String} {r : OrderRecord}
    (h : Loads s orderId r) (r' : OrderRecord) (hid : r'.orderId = r.orderId) {p : OrderRecord × RecordStore durable} :
    OrderRepository.update r' s = .ok p ↔ Puts s r' p := by
  have hs : (s.find? r'.orderId).isSome := by rw [hid, h.orderId, h.1]; rfl
  rw [update_ok]
  exact ⟨fun hp => hp.2, fun hp => ⟨hs, hp⟩⟩

theorem puts_iff_of_eq {s : RecordStore durable} {orderId : String} {r : OrderRecord}
    (h : Loads s orderId r) (r' : OrderRecord) (hid : r'.orderId = r.orderId) (hv : r'.venueOrderId = r.venueOrderId)
    {p : OrderRecord × RecordStore durable} : Puts s r' p ↔ p = (r', s.put r') := by
  have hf : s.find? r.orderId = some r := by rw [h.orderId, h.1]
  simp [Puts, venueIdTaken_of_eq hf hid hv]

/-- The shape of most mutators: check an edge of the machine, store a version. -/
theorem checkedUpdate_ok {orderId : String} (target : OrderRecord → OrderState)
    (write : OrderRecord → OrderRecord) (hid : ∀ r, (write r).orderId = r.orderId)
    {s : RecordStore durable} {p : OrderRecord × RecordStore durable} :
    held orderId (fun record => do
        check record.state (target record) orderId
        OrderRepository.update (write record)) s = .ok p ↔
      ∃ r, Loads s orderId r ∧ canTransition r.state (target r) ∧ Puts s (write r) p := by
  rw [held_ok]
  constructor
  · rintro ⟨r, hr, h⟩
    obtain ⟨u, t, hchecked, h⟩ := Transaction.bind_ok.mp h
    obtain ⟨hc, he⟩ := check_ok.mp hchecked
    cases he
    exact ⟨r, hr, hc, (update_held hr (write r) (hid r)).mp h⟩
  · rintro ⟨r, hr, hc, h⟩
    refine ⟨r, hr, Transaction.bind_ok.mpr ⟨(), s, check_ok.mpr ⟨hc, rfl⟩, ?_⟩⟩
    exact (update_held hr (write r) (hid r)).mpr h

theorem Applies.orderId {decision : ReconciliationDecision} {now : Timestamp} {r r' : OrderRecord}
    (h : Applies decision now r r') : r'.orderId = r.orderId := by
  cases h <;> rfl

section

variable {s : RecordStore durable} {orderId : String} {now : Timestamp} {p : OrderRecord × RecordStore durable}

theorem move_ok {target : OrderState} {submittedAt : Option Timestamp} :
    move orderId target now submittedAt s = .ok p ↔
      ∃ r, Loads s orderId r ∧ canTransition r.state target ∧ Puts s (withMove r target now submittedAt) p :=
  checkedUpdate_ok (fun _ => target) (fun r => withMove r target now submittedAt) fun _ => rfl

theorem markRiskRejected_ok {code : RiskRejectionCode} {detail : String} :
    markRiskRejected orderId code detail now s = .ok p ↔
      ∃ r, Loads s orderId r ∧ canTransition r.state .rejected ∧
        Puts s (withRiskRejection r code detail now) p :=
  checkedUpdate_ok (fun _ => .rejected) (fun r => withRiskRejection r code detail now) fun _ => rfl

theorem cancelBeforeSubmission_ok {reason : String} :
    cancelBeforeSubmission orderId reason now s = .ok p ↔
      ∃ r, Loads s orderId r ∧ r.reachedVenue = false ∧ canTransition r.state .cancelled ∧
        Puts s (withCancellation r reason now) p := by
  unfold cancelBeforeSubmission
  rw [held_ok]
  refine exists_congr fun r => and_congr_right fun hr => ?_
  cases hv : r.reachedVenue with
  | true => simp [Transaction.throw_ok]
  | false =>
      simp only [Bool.false_eq_true, if_false, true_and, Transaction.bind_ok, check_ok]
      constructor
      · rintro ⟨u, t, ⟨hc, he⟩, h⟩
        cases he
        exact ⟨hc, (update_held hr (withCancellation r reason now) rfl).mp h⟩
      · rintro ⟨hc, h⟩
        exact ⟨(), s, ⟨hc, rfl⟩, (update_held hr (withCancellation r reason now) rfl).mpr h⟩

theorem applyVenueAck_ok {venueOrderId : String} {state : OrderState} :
    applyVenueAck orderId venueOrderId state now s = .ok p ↔
      ∃ r, Loads s orderId r ∧ canTransition r.state state ∧ Puts s (withAck r venueOrderId state now) p :=
  checkedUpdate_ok (fun _ => state) (fun r => withAck r venueOrderId state now) fun _ => rfl

theorem markUnknown_ok {reason : String} :
    markUnknown orderId reason now s = .ok p ↔
      ∃ r, Loads s orderId r ∧ canTransition r.state .unknown ∧ Puts s (withUnknown r reason now) p :=
  checkedUpdate_ok (fun _ => .unknown) (fun r => withUnknown r reason now) fun _ => rfl

theorem beginReconciliation_ok :
    beginReconciliation orderId now s = .ok p ↔
      ∃ r, Loads s orderId r ∧ canTransition r.state .reconciling ∧ Puts s (withAttempt r now) p :=
  checkedUpdate_ok (fun _ => .reconciling) (fun r => withAttempt r now) fun _ => rfl

theorem applyFill_ok {fill : OrderFill} (h : applyFill orderId fill now s = .ok p) :
    ∃ r, Loads s orderId r ∧
      ((∃ detail, r.intent.quantity < r.filledQuantity + fill.quantity ∧
          Puts s (withDiscrepancy r detail now) p) ∨
        (r.filledQuantity + fill.quantity ≤ r.intent.quantity ∧
          canTransition r.state (fillTarget r (r.filledQuantity + fill.quantity)) ∧
          Puts s (withFill r fill now) p)) := by
  obtain ⟨r, hr, h⟩ := held_ok.mp h
  refine ⟨r, hr, ?_⟩
  dsimp only at h
  split at h
  · rename_i hover
    exact .inl ⟨_, hover, (update_held hr (withDiscrepancy r _ now) rfl).mp h⟩
  · rename_i hover
    obtain ⟨u, t, hchecked, h⟩ := Transaction.bind_ok.mp h
    obtain ⟨hc, he⟩ := check_ok.mp hchecked
    cases he
    exact .inr ⟨not_lt.mp hover, hc, (update_held hr (withFill r fill now) rfl).mp h⟩

/-- A decision that names no action on the record. `decide` returns none of these. -/
def Inert (decision : ReconciliationDecision) : Prop :=
  decision.action ≠ .recordDiscrepancy ∧ decision.action ≠ .venueUnreachable ∧ decision.targetState = none

theorem not_inert_decide (r : OrderRecord) (venueView : Option VenueOrderView) (venueReachable : Bool) :
    ¬ Inert (Reconcile.decide r venueView venueReachable) := by
  rintro ⟨hrecord, hunreachable, htarget⟩
  cases venueReachable with
  | false => exact hunreachable rfl
  | true =>
      cases venueView with
      | none =>
          rw [Reconcile.decide_none] at htarget
          split at htarget <;> cases htarget
      | some view =>
          by_cases hc : Reconcile.Contradicts r view
          · exact hrecord (Reconcile.decide_view_of_contradicts hc).1
          · rw [Reconcile.decide_view_of_not_contradicts hc] at htarget
            cases htarget

section

variable {decision : ReconciliationDecision} {r r' r'' : OrderRecord} {target : OrderState}

theorem Applies.not_inert (h : Applies decision now r r') : ¬ Inert decision := by
  rintro ⟨hrecord, hunreachable, htarget⟩
  cases h with
  | disputed hd => exact hrecord hd
  | unanswered hu => exact hunreachable hu
  | repeated _ _ ht =>
      rw [htarget] at ht
      cases ht
  | moved _ _ _ ht =>
      rw [htarget] at ht
      cases ht

/-- A decision that moves the record moves it along an edge of the machine. -/
theorem Applies.legal (h : Applies decision now r r') (hrecord : decision.action ≠ .recordDiscrepancy)
    (hunreachable : decision.action ≠ .venueUnreachable) (htarget : decision.targetState = some target)
    (hne : target ≠ r.state) : canTransition r.state target := by
  cases h with
  | disputed hd => exact absurd hd hrecord
  | unanswered hu => exact absurd hu hunreachable
  | repeated _ _ ht =>
      rw [htarget] at ht
      cases ht
      exact absurd rfl hne
  | moved target' _ _ ht _ hc =>
      rw [htarget] at ht
      cases ht
      exact hc

theorem Applies.unique (h : Applies decision now r r') (h' : Applies decision now r r'') : r' = r'' := by
  cases h with
  | disputed hd =>
      cases h' with
      | disputed => rfl
      | unanswered hu => exact nomatch hd.symm.trans hu
      | repeated hn => exact absurd hd hn
      | moved _ hn => exact absurd hd hn
  | unanswered hu =>
      cases h' with
      | disputed hd => exact nomatch hu.symm.trans hd
      | unanswered => rfl
      | repeated _ hn => exact absurd hu hn
      | moved _ _ hn => exact absurd hu hn
  | repeated hrecord hunreachable htarget =>
      cases h' with
      | disputed hd => exact absurd hd hrecord
      | unanswered hu => exact absurd hu hunreachable
      | repeated => rfl
      | moved target _ _ ht hne => exact absurd (Option.some.inj (ht.symm.trans htarget)) hne
  | moved target hrecord hunreachable htarget hne =>
      cases h' with
      | disputed hd => exact absurd hd hrecord
      | unanswered hu => exact absurd hu hunreachable
      | repeated _ _ ht => exact absurd (Option.some.inj (htarget.symm.trans ht)) hne
      | moved target' _ _ ht =>
          cases htarget.symm.trans ht
          rfl

end

theorem applyReconciliation_ok {decision : ReconciliationDecision} :
    applyReconciliation orderId decision now s = .ok p ↔
      ∃ r, Loads s orderId r ∧
        (Inert decision ∧ p = (r, s) ∨ ∃ r', Applies decision now r r' ∧ Puts s r' p) := by
  unfold applyReconciliation
  rw [held_ok]
  refine exists_congr fun r => and_congr_right fun hr => ?_
  have hsole : ∀ r', Applies decision now r r' → (OrderRepository.update r' s = .ok p ↔
      Inert decision ∧ p = (r, s) ∨ ∃ r', Applies decision now r r' ∧ Puts s r' p) := by
    intro r' happly
    refine (update_held hr r' happly.orderId).trans ⟨fun h => .inr ⟨r', happly, h⟩, ?_⟩
    rintro (⟨hinert, _⟩ | ⟨other, hother, h⟩)
    · exact absurd hinert happly.not_inert
    · rw [happly.unique hother]
      exact h
  by_cases hrecord : decision.action = .recordDiscrepancy
  · rw [if_pos hrecord]
    exact hsole _ (.disputed hrecord)
  rw [if_neg hrecord]
  by_cases hunreachable : decision.action = .venueUnreachable
  · rw [if_pos hunreachable]
    exact hsole _ (.unanswered hunreachable)
  rw [if_neg hunreachable]
  cases htarget : decision.targetState with
  | none =>
      refine (Transaction.pure_ok).trans ⟨fun h => .inl ⟨⟨hrecord, hunreachable, htarget⟩, h⟩, ?_⟩
      rintro (⟨_, h⟩ | ⟨r', happly, _⟩)
      · exact h
      · exact absurd ⟨hrecord, hunreachable, htarget⟩ happly.not_inert
  | some target =>
      dsimp only
      by_cases hsame : target = r.state
      · rw [if_pos hsame]
        exact hsole _ (.repeated hrecord hunreachable (htarget.trans (by rw [hsame])))
      · rw [if_neg hsame, Transaction.bind_ok]
        have hmoved := fun hc => hsole _ (.moved target hrecord hunreachable htarget hsame hc)
        constructor
        · rintro ⟨u, t, hchecked, h⟩
          obtain ⟨hc, he⟩ := check_ok.mp hchecked
          cases he
          exact (hmoved hc).mp h
        · intro h
          have hc : canTransition r.state target := by
            rcases h with ⟨⟨_, _, hn⟩, _⟩ | ⟨r', happly, _⟩
            · exact nomatch htarget.symm.trans hn
            · exact happly.legal hrecord hunreachable htarget hsame
          exact ⟨(), s, check_ok.mpr ⟨hc, rfl⟩, (hmoved hc).mpr h⟩

theorem reconcile_ok {venueView : Option VenueOrderView} {venueReachable : Bool}
    {q : (OrderRecord × ReconciliationDecision) × RecordStore durable} :
    OrderEngine.reconcile orderId venueView venueReachable now s = .ok q ↔
      ∃ r r', Loads s orderId r ∧ Applies (Reconcile.decide r venueView venueReachable) now r r' ∧
        s.venueIdTaken r' = false ∧
        q = ((r', Reconcile.decide r venueView venueReachable), s.put r') := by
  unfold OrderEngine.reconcile
  rw [held_ok]
  constructor
  · rintro ⟨r, hr, h⟩
    obtain ⟨a, t, ha, h⟩ := Transaction.bind_ok.mp h
    have h := Transaction.pure_ok.mp h
    obtain ⟨r₂, hr₂, hi | ⟨r', happly, hv, he⟩⟩ := applyReconciliation_ok.mp ha
    · exact absurd hi.1 (not_inert_decide r venueView venueReachable)
    · cases hr.unique hr₂
      cases he
      exact ⟨r, a, hr, happly, hv, h⟩
  · rintro ⟨r, r', hr, happly, hv, rfl⟩
    refine ⟨r, hr, Transaction.bind_ok.mpr ⟨r', s.put r', ?_, rfl⟩⟩
    exact applyReconciliation_ok.mpr ⟨r, hr, .inr ⟨r', happly, hv, rfl⟩⟩

theorem resolveManually_ok {toState : OrderState} {operator reason : String}
    (h : resolveManually orderId toState operator reason now s = .ok p) :
    ∃ r, Loads s orderId r ∧
      ((r.state = .reconciling ∧ canTransition r.state toState ∧
          Puts s (withResolution r toState operator reason now) p) ∨
        (r.state = .unknown ∧ canTransition .reconciling toState ∧
          Puts (s.put (withAttempt r now)) (withResolution (withAttempt r now) toState operator reason now) p)) := by
  obtain ⟨r, hr, h⟩ := held_ok.mp h
  refine ⟨r, hr, ?_⟩
  by_cases hunreconciled : r.isUnreconciled
  · rw [if_neg (by simpa using hunreconciled)] at h
    by_cases hunknown : r.state = .unknown
    · rw [if_pos hunknown] at h
      obtain ⟨r₂, t, hbegin, h⟩ := Transaction.bind_ok.mp h
      obtain ⟨r₁, hr₁, _, hput⟩ := beginReconciliation_ok.mp hbegin
      cases hr.unique hr₁
      cases ((puts_iff_of_eq hr (withAttempt r now) rfl rfl).mp hput)
      obtain ⟨u, t, hchecked, h⟩ := Transaction.bind_ok.mp h
      obtain ⟨hc, he⟩ := check_ok.mp hchecked
      cases he
      have hload : Loads (s.put (withAttempt r now)) orderId (withAttempt r now) :=
        loads_put hr.orderId hr.2
      exact .inr ⟨hunknown, hc,
        (update_held hload (withResolution (withAttempt r now) toState operator reason now) rfl).mp h⟩
    · have hreconciling : r.state = .reconciling := by
        simpa [OrderRecord.isUnreconciled, hunknown] using hunreconciled
      rw [if_neg hunknown] at h
      obtain ⟨r₂, t, hsame, h⟩ := Transaction.bind_ok.mp h
      cases Transaction.pure_ok.mp hsame
      obtain ⟨u, t, hchecked, h⟩ := Transaction.bind_ok.mp h
      obtain ⟨hc, he⟩ := check_ok.mp hchecked
      cases he
      exact .inl ⟨hreconciling, hc,
        (update_held hr (withResolution r toState operator reason now) rfl).mp h⟩
  · rw [if_pos (by simpa using hunreconciled)] at h
    exact absurd h (by simp [Transaction.throw_ok])

end

end Aetheris.OrderCalls
