import Aetheris.OrderCalls

namespace Aetheris.OrderWrites

open Lib Clock Enums OrderRecords OrderMachine OrderStore OrderEngine OrderCalls OrderIdentity RecordStore

inductive Operation
  | create (orderId : String) (intent : OrderIntent)
  | createOrGet (orderId : String) (intent : OrderIntent)
  | markValidating (orderId : String) (now : Timestamp)
  | markRiskRejected (orderId : String) (code : RiskRejectionCode) (detail : String) (now : Timestamp)
  | cancelBeforeSubmission (orderId reason : String) (now : Timestamp)
  | markSubmitting (orderId : String) (now : Timestamp)
  | applyVenueAck (orderId venueOrderId : String) (state : OrderState) (now : Timestamp)
  | markUnknown (orderId reason : String) (now : Timestamp)
  | applyFill (orderId : String) (fill : OrderFill) (now : Timestamp)
  | beginReconciliation (orderId : String) (now : Timestamp)
  | reconcile (orderId : String) (venueView : Option VenueOrderView) (venueReachable : Bool) (now : Timestamp)
  | applyReconciliation (orderId : String) (decision : ReconciliationDecision) (now : Timestamp)
  | resolveManually (orderId : String) (toState : OrderState) (operator reason : String) (now : Timestamp)
  | recover (now : Timestamp)

namespace Operation

def orderId? : Operation → Option String
  | create .. | createOrGet .. | recover .. => none
  | markValidating orderId .. | markRiskRejected orderId .. | cancelBeforeSubmission orderId ..
  | markSubmitting orderId .. | applyVenueAck orderId .. | markUnknown orderId .. | applyFill orderId ..
  | beginReconciliation orderId .. | reconcile orderId .. | applyReconciliation orderId ..
  | resolveManually orderId .. => some orderId

def builds : Operation → Option (String × OrderIntent)
  | create orderId intent | createOrGet orderId intent => some (orderId, intent)
  | _ => none

end Operation

variable {durable : Bool} {α : Type}

def quietly (x : OrderM (RecordStore durable) α) : OrderM (RecordStore durable) Unit := do
  let _ ← x
  return ()

def perform [Runtime] : Operation → OrderM (RecordStore durable) Unit
  | .create orderId intent => quietly (OrderEngine.create orderId intent)
  | .createOrGet orderId intent => quietly (OrderEngine.createOrGet orderId intent)
  | .markValidating orderId now => quietly (OrderEngine.markValidating orderId now)
  | .markRiskRejected orderId code detail now => quietly (OrderEngine.markRiskRejected orderId code detail now)
  | .cancelBeforeSubmission orderId reason now =>
      quietly (OrderEngine.cancelBeforeSubmission orderId reason now)
  | .markSubmitting orderId now => quietly (OrderEngine.markSubmitting orderId now)
  | .applyVenueAck orderId venueOrderId state now =>
      quietly (OrderEngine.applyVenueAck orderId venueOrderId state now)
  | .markUnknown orderId reason now => quietly (OrderEngine.markUnknown orderId reason now)
  | .applyFill orderId fill now => quietly (OrderEngine.applyFill orderId fill now)
  | .beginReconciliation orderId now => quietly (OrderEngine.beginReconciliation orderId now)
  | .reconcile orderId venueView venueReachable now =>
      quietly (OrderEngine.reconcile orderId venueView venueReachable now)
  | .applyReconciliation orderId decision now => quietly (OrderEngine.applyReconciliation orderId decision now)
  | .resolveManually orderId toState operator reason now =>
      quietly (OrderEngine.resolveManually orderId toState operator reason now)
  | .recover now => quietly (OrderEngine.recover now)

/-- One version an operation stores over the version before it. -/
inductive Write : Operation → OrderRecord → OrderRecord → Prop
  | validating {r now} : canTransition r.state .validating →
      Write (.markValidating r.orderId now) r (withMove r .validating now none)
  | riskRejected {r code detail now} : canTransition r.state .rejected →
      Write (.markRiskRejected r.orderId code detail now) r (withRiskRejection r code detail now)
  | cancelled {r reason now} : r.reachedVenue = false → canTransition r.state .cancelled →
      Write (.cancelBeforeSubmission r.orderId reason now) r (withCancellation r reason now)
  | submitting {r now} : canTransition r.state .submitted →
      Write (.markSubmitting r.orderId now) r (withMove r .submitted now (some now))
  | acknowledged {r venueOrderId state now} : canTransition r.state state →
      Write (.applyVenueAck r.orderId venueOrderId state now) r (withAck r venueOrderId state now)
  | unknown {r reason now} : canTransition r.state .unknown →
      Write (.markUnknown r.orderId reason now) r (withUnknown r reason now)
  | overfilled {r fill now} (detail : String) : r.intent.quantity < r.filledQuantity + fill.quantity →
      Write (.applyFill r.orderId fill now) r (withDiscrepancy r detail now)
  | filled {r fill now} : r.filledQuantity + fill.quantity ≤ r.intent.quantity →
      canTransition r.state (fillTarget r (r.filledQuantity + fill.quantity)) →
      Write (.applyFill r.orderId fill now) r (withFill r fill now)
  | attempted {r now} : canTransition r.state .reconciling →
      Write (.beginReconciliation r.orderId now) r (withAttempt r now)
  | reconciled {r r' venueView venueReachable now} :
      Applies (Reconcile.decide r venueView venueReachable) now r r' →
      Write (.reconcile r.orderId venueView venueReachable now) r r'
  | applied {r r' decision now} : Applies decision now r r' →
      Write (.applyReconciliation r.orderId decision now) r r'
  | reopened {r toState operator reason now} : r.state = .unknown →
      Write (.resolveManually r.orderId toState operator reason now) r (withAttempt r now)
  | resolved {r toState operator reason now} : r.state = .reconciling → canTransition r.state toState →
      Write (.resolveManually r.orderId toState operator reason now) r
        (withResolution r toState operator reason now)
  | interrupted {r now} : r.reachedVenue → canTransition r.state .unknown →
      Write (.recover now) r (withUnknown r interruptedReason now)
  | damaged {r now} (detail : String) : Write (.recover now) r (withUnreadable r detail now)

inductive Writes [Runtime] (op : Operation) : RecordStore durable → RecordStore durable → Prop
  | done (s) : Writes op s s
  | built {s orderId intent} : op.builds = some (orderId, intent) →
      s.findByClientId (clientOrderId intent.accountId intent.intentKey) = none →
      (durable = true → s.find? orderId = none) → Writes op s (s.put (build orderId intent))
  | written {s t r r'} : s.find? r.orderId = some r → Write op r r' → Writes op (s.put r') t → Writes op s t

theorem Write.orderId {op : Operation} {r r' : OrderRecord} (h : Write op r r') : r'.orderId = r.orderId := by
  cases h <;> first | rfl | exact Applies.orderId ‹_›

/-- A call stores versions of the order it names, or is `recover`. -/
theorem Write.target {op : Operation} {r r' : OrderRecord} (h : Write op r r') :
    op.orderId? = some r.orderId ∨ op.orderId? = none := by
  cases h <;> first | exact .inl rfl | exact .inr rfl

def met (s : RecordStore durable) (op : Operation) : Option OrderRecord := op.orderId?.bind s.find?

theorem met_of_target {op : Operation} {s : RecordStore durable} {r : OrderRecord}
    (h : op.orderId? = some r.orderId) (hr : s.find? r.orderId = some r) : met s op = some r := by
  rw [met, h]
  exact hr

variable [Runtime] {op : Operation} {s t u : RecordStore durable}

theorem Writes.single {r r' : OrderRecord} (hr : s.find? r.orderId = some r) (h : Write op r r') :
    Writes op s (s.put r') :=
  .written hr h (.done _)

theorem Writes.trans (h : Writes op s t) (hu : op.builds = none) (h' : Writes op t u) : Writes op s u := by
  induction h with
  | done => exact h'
  | built hb => rw [hu] at hb; cases hb
  | written hr hw _ ih => exact .written hr hw (ih h')

/-- What building a record and storing a version over the row it replaces
both preserve, an operation preserves. -/
theorem Writes.preserves {J : RecordStore durable → Prop}
    (hbuild : ∀ s orderId intent, J s → op.builds = some (orderId, intent) →
      s.findByClientId (clientOrderId intent.accountId intent.intentKey) = none →
      (durable = true → s.find? orderId = none) → J (s.put (build orderId intent)))
    (hwrite : ∀ s r r', J s → s.find? r.orderId = some r → Write op r r' → J (s.put r'))
    (h : Writes op s t) (hs : J s) : J t := by
  induction h with
  | done => exact hs
  | built hb hc hid => exact hbuild _ _ _ hs hb hc hid
  | written hr hw _ ih => exact ih (hwrite _ _ _ hs hr hw)

theorem recoverRecords_writes {now : Timestamp} {records : List OrderRecord} {report : RecoveryReport}
    {p : RecoveryReport × RecordStore durable} (h : recoverRecords now records report s = .ok p)
    (hs : ∀ r ∈ records, s.find? r.orderId = some r) (hn : (records.map OrderRecord.orderId).Nodup) :
    Writes (.recover now) s p.2 := by
  induction records generalizing s report with
  | nil =>
      cases Transaction.pure_ok.mp h
      exact .done _
  | cons r rest ih =>
      have hrest : ∀ q ∈ rest, s.find? q.orderId = some q := fun q hq => hs q (List.mem_cons_of_mem r hq)
      obtain ⟨hr, hn⟩ := List.nodup_cons.mp hn
      rw [recoverRecords] at h
      split at h
      · exact ih h hrest hn
      split at h
      · exact ih h hrest hn
      · rename_i hreached
        obtain ⟨r', t, hu, h⟩ := Transaction.bind_ok.mp h
        obtain ⟨r₁, hl, hc, _, he⟩ := markUnknown_ok.mp hu
        have hr₁ : r = r₁ := by simpa using (hs r (List.mem_cons_self ..)).symm.trans hl.1
        cases hr₁
        cases he
        refine .written hl.1 (.interrupted (by simpa using hreached) hc) (ih h ?_ hn)
        intro q hq
        have hne : r.orderId ≠ q.orderId := fun he => hr (List.mem_map.mpr ⟨q, hq, he.symm⟩)
        have hput : (withUnknown r interruptedReason now).orderId ≠ q.orderId := hne
        exact (find?_put_of_ne s hput).trans (hrest q hq)

theorem recoverUnreadable_writes {now : Timestamp} {damaged : List UnreadableOrder}
    {p : Unit × RecordStore durable} (h : recoverUnreadable now damaged s = .ok p) :
    Writes (.recover now) s p.2 := by
  induction damaged generalizing s with
  | nil =>
      cases Transaction.pure_ok.mp h
      exact .done _
  | cons d rest ih =>
      obtain ⟨v, t, hd, h⟩ := Transaction.bind_ok.mp h
      obtain ⟨_, r, hr, he⟩ := recordUnreadable_ok.mp hd
      cases he
      have hr : s.find? r.orderId = some r := by rw [orderId_of_find? hr, hr]
      exact .written hr (.damaged _) (ih h)

theorem recover_writes {now : Timestamp} {p : RecoveryReport × RecordStore durable}
    (h : OrderEngine.recover now s = .ok p) : Writes (.recover now) s p.2 := by
  unfold OrderEngine.recover at h
  split at h
  · cases Transaction.pure_ok.mp h
    exact .done _
  · obtain ⟨scan, t, hscan, h⟩ := Transaction.bind_ok.mp h
    cases hscan
    obtain ⟨report, t, hrecords, h⟩ := Transaction.bind_ok.mp h
    obtain ⟨v, u, hdamaged, h⟩ := Transaction.bind_ok.mp h
    cases Transaction.pure_ok.mp h
    have hopen : ∀ r ∈ s.scan.records, s.find? r.orderId = some r :=
      fun r hr => mem_rows_iff.mp (mem_scan_records.mp hr).1
    exact (recoverRecords_writes hrecords hopen s.nodup_scan_records).trans rfl (recoverUnreadable_writes hdamaged)

omit [Runtime] in
theorem quietly_ok {x : OrderM (RecordStore durable) α} {p : Unit × RecordStore durable} :
    quietly x s = .ok p ↔ ∃ a, x s = .ok (a, p.2) := by
  unfold quietly
  rw [Transaction.bind_ok]
  constructor
  · rintro ⟨a, t, ha, h⟩
    cases Transaction.pure_ok.mp h
    exact ⟨a, ha⟩
  · rintro ⟨a, ha⟩
    exact ⟨a, p.2, ha, rfl⟩

theorem puts_writes {r r' : OrderRecord} {orderId : String} {p : OrderRecord × RecordStore durable}
    (hr : Loads s orderId r) (h : Write op r r') (hp : Puts s r' p) : Writes op s p.2 := by
  obtain ⟨_, rfl⟩ := hp
  have hf : s.find? r.orderId = some r := by rw [hr.orderId, hr.1]
  exact .single hf h

theorem perform_writes (h : perform op s = .ok ((), t)) : Writes op s t := by
  cases op with
  | create orderId intent =>
      obtain ⟨a, ha⟩ := quietly_ok.mp h
      obtain ⟨hc, hid, _, he⟩ := add_ok.mp ha
      cases he
      exact .built rfl hc hid
  | createOrGet orderId intent =>
      obtain ⟨a, ha⟩ := quietly_ok.mp h
      rcases addOrGet_ok.mp ha with ⟨existing, _, _, he⟩ | ⟨hc, hid, _, he⟩
      · cases he
        exact .done _
      · cases he
        exact .built rfl hc hid
  | markValidating orderId now =>
      obtain ⟨a, ha⟩ := quietly_ok.mp h
      obtain ⟨r, hr, hc, hp⟩ := move_ok.mp ha
      cases hr.orderId
      exact puts_writes hr (.validating hc) hp
  | markRiskRejected orderId code detail now =>
      obtain ⟨a, ha⟩ := quietly_ok.mp h
      obtain ⟨r, hr, hc, hp⟩ := markRiskRejected_ok.mp ha
      cases hr.orderId
      exact puts_writes hr (.riskRejected hc) hp
  | cancelBeforeSubmission orderId reason now =>
      obtain ⟨a, ha⟩ := quietly_ok.mp h
      obtain ⟨r, hr, hv, hc, hp⟩ := cancelBeforeSubmission_ok.mp ha
      cases hr.orderId
      exact puts_writes hr (.cancelled hv hc) hp
  | markSubmitting orderId now =>
      obtain ⟨a, ha⟩ := quietly_ok.mp h
      obtain ⟨r, hr, hc, hp⟩ := move_ok.mp ha
      cases hr.orderId
      exact puts_writes hr (.submitting hc) hp
  | applyVenueAck orderId venueOrderId state now =>
      obtain ⟨a, ha⟩ := quietly_ok.mp h
      obtain ⟨r, hr, hc, hp⟩ := applyVenueAck_ok.mp ha
      cases hr.orderId
      exact puts_writes hr (.acknowledged hc) hp
  | markUnknown orderId reason now =>
      obtain ⟨a, ha⟩ := quietly_ok.mp h
      obtain ⟨r, hr, hc, hp⟩ := markUnknown_ok.mp ha
      cases hr.orderId
      exact puts_writes hr (.unknown hc) hp
  | applyFill orderId fill now =>
      obtain ⟨a, ha⟩ := quietly_ok.mp h
      obtain ⟨r, hr, ⟨detail, hover, hp⟩ | ⟨hle, hc, hp⟩⟩ := applyFill_ok ha
      · cases hr.orderId
        exact puts_writes hr (.overfilled detail hover) hp
      · cases hr.orderId
        exact puts_writes hr (.filled hle hc) hp
  | beginReconciliation orderId now =>
      obtain ⟨a, ha⟩ := quietly_ok.mp h
      obtain ⟨r, hr, hc, hp⟩ := beginReconciliation_ok.mp ha
      cases hr.orderId
      exact puts_writes hr (.attempted hc) hp
  | reconcile orderId venueView venueReachable now =>
      obtain ⟨a, ha⟩ := quietly_ok.mp h
      obtain ⟨r, r', hr, happly, hv, he⟩ := reconcile_ok.mp ha
      cases hr.orderId
      cases he
      exact puts_writes hr (.reconciled happly) ⟨hv, rfl⟩
  | applyReconciliation orderId decision now =>
      obtain ⟨a, ha⟩ := quietly_ok.mp h
      obtain ⟨r, hr, ⟨_, he⟩ | ⟨r', happly, hp⟩⟩ := applyReconciliation_ok.mp ha
      · cases he
        exact .done _
      · cases hr.orderId
        exact puts_writes hr (.applied happly) hp
  | resolveManually orderId toState operator reason now =>
      obtain ⟨a, ha⟩ := quietly_ok.mp h
      obtain ⟨r, hr, ⟨hs, hc, hp⟩ | ⟨hs, hc, hp⟩⟩ := resolveManually_ok ha
      · cases hr.orderId
        exact puts_writes hr (.resolved hs hc) hp
      · cases hr.orderId
        have hf : s.find? r.orderId = some r := hr.1
        have hload : Loads (s.put (withAttempt r now)) r.orderId (withAttempt r now) := loads_put rfl hr.2
        have hw : Write (.resolveManually (withAttempt r now).orderId toState operator reason now)
            (withAttempt r now) (withResolution (withAttempt r now) toState operator reason now) :=
          .resolved rfl hc
        exact .written hf (.reopened hs) (puts_writes hload hw hp)
  | recover now =>
      obtain ⟨a, ha⟩ := quietly_ok.mp h
      exact recover_writes ha

/-- What a fresh record has, and every version keeps over the version before
it as long as the calls respect a guard on the record they meet, every stored
version has in every run. -/
theorem run_stored {P : OrderRecord → Prop} {G : Operation → OrderRecord → Prop}
    (hbuild : ∀ orderId intent, P (build orderId intent))
    (hfree : ∀ op r, op.orderId? = none → G op r)
    (hwrite : ∀ {op r r'}, Write op r r' → P r → G op r → P r' ∧ G op r')
    {ops : List Operation} (h : Transaction.Along perform (fun s op => ∀ r ∈ met s op, G op r) s ops)
    (hs : ∀ r ∈ s.stored, P r) : ∀ r ∈ (Transaction.run perform s ops).stored, P r := by
  refine Transaction.run_invariant (I := fun s => ∀ r ∈ s.stored, P r) ?_ h hs
  intro s op t hI hg hp
  have hput : ∀ {s : RecordStore durable} {r : OrderRecord}, (∀ b ∈ s.stored, P b) → P r →
      ∀ b ∈ (s.put r).stored, P b := by
    intro s r hs hr b hb
    rw [stored_put, List.mem_append, List.mem_singleton] at hb
    rcases hb with hb | rfl
    · exact hs b hb
    · exact hr
  refine ((perform_writes hp).preserves (J := fun s => (∀ r ∈ s.stored, P r) ∧ ∀ r ∈ met s op, G op r)
    ?_ ?_ ⟨hI, hg⟩).1
  · rintro s orderId intent ⟨hI, _⟩ hb _ _
    refine ⟨hput hI (hbuild orderId intent), fun r hr => hfree op r ?_⟩
    cases op <;> first | rfl | cases hb
  · rintro s r r' ⟨hI, hg⟩ hr hw
    rcases hw.target with ht | ht
    · obtain ⟨hP, hG⟩ := hwrite hw (hI r (mem_stored_of_find? hr)) (hg r (met_of_target ht hr))
      refine ⟨hput hI hP, fun b hb => ?_⟩
      rw [met_of_target (by rw [ht, hw.orderId]) (find?_put_self s r')] at hb
      cases hb
      exact hG
    · obtain ⟨hP, _⟩ := hwrite hw (hI r (mem_stored_of_find? hr)) (hfree op r ht)
      exact ⟨hput hI hP, fun b _ => hfree op b ht⟩

omit [Runtime]

/-- One unit bought at market, under an identity the reference runtime can derive. -/
def exampleIntent : OrderIntent where
  accountId := "acct"
  symbol := "BTCUSDT"
  side := .buy
  orderType := .market
  quantity := 1
  mode := .testnet
  intentKey := "testnet:BTCUSDT:BUY:k1"
  createdAt := 0
  quantity_pos := by decide

def exampleSubmission : List Operation :=
  [.create "order-1" exampleIntent, .markValidating "order-1" 1, .markSubmitting "order-1" 2]

theorem wholeUnit_pos : (0 : Money.Decimal) < 1 := by decide

theorem halfUnit_pos : (0 : Money.Decimal) < 1 / 2 := by norm_num

theorem fifthUnit_pos : (0 : Money.Decimal) < 1 / 5 := by norm_num

def exampleFill (quantity : Money.Decimal) (h : 0 < quantity) : OrderFill where
  fillId := "fill"
  price := 100
  quantity := quantity
  filledAt := 3
  price_pos := by decide
  quantity_pos := h

def exampleView (state : OrderState) (filledQuantity : Money.Decimal) (h : 0 < filledQuantity) :
    VenueOrderView where
  clientOrderId := "aeth-26e742032342c67b1c32"
  venueOrderId := some "v1"
  state := state
  filledQuantity := filledQuantity
  averageFillPrice := some 100
  observedAt := 4
  filledQuantity_nonneg := h.le

def examplePerform : Operation → OrderM (RecordStore true) Unit := @perform true referenceRuntime

end Aetheris.OrderWrites
