import Aetheris.MirroredCalls
import Aetheris.OrderWrites

namespace Aetheris.OrderRefinement

open Lib Paired Transaction Money Clock Enums OrderRecords OrderMachine OrderStore OrderEngine OrderTables OrderMirror
open MirroredCalls OrderWrites
open OrderIdentity (Runtime clientOrderId referenceRuntime uuidDigest)

variable {uuid : String → Option String} {accountId : String} {owner : String → String}

/-! ### The engine over any repository -/

section Perform

variable {σ α : Type} [OrderRepository σ] [Runtime]

def silently (x : OrderM σ α) : OrderM σ Unit := do
  let _ ← x
  return ()

def performOn : Operation → OrderM σ Unit
  | .create orderId intent => silently (OrderEngine.create orderId intent)
  | .createOrGet orderId intent => silently (OrderEngine.createOrGet orderId intent)
  | .markValidating orderId now => silently (OrderEngine.markValidating orderId now)
  | .markRiskRejected orderId code detail now => silently (OrderEngine.markRiskRejected orderId code detail now)
  | .cancelBeforeSubmission orderId reason now => silently (OrderEngine.cancelBeforeSubmission orderId reason now)
  | .markSubmitting orderId now => silently (OrderEngine.markSubmitting orderId now)
  | .applyVenueAck orderId venueOrderId state now =>
      silently (OrderEngine.applyVenueAck orderId venueOrderId state now)
  | .markUnknown orderId reason now => silently (OrderEngine.markUnknown orderId reason now)
  | .applyFill orderId fill now => silently (OrderEngine.applyFill orderId fill now)
  | .beginReconciliation orderId now => silently (OrderEngine.beginReconciliation orderId now)
  | .reconcile orderId venueView venueReachable now =>
      silently (OrderEngine.reconcile orderId venueView venueReachable now)
  | .applyReconciliation orderId decision now => silently (OrderEngine.applyReconciliation orderId decision now)
  | .resolveManually orderId toState operator reason now =>
      silently (OrderEngine.resolveManually orderId toState operator reason now)
  | .recover now => silently (OrderEngine.recover now)

/-- Over records it is what the other results on the engine are about. -/
theorem performOn_records {durable : Bool} (op : Operation) :
    (performOn op : OrderM (RecordStore durable) Unit) = perform op := by
  cases op <;> rfl

end Perform

/-! ### Where the tables follow -/

variable [Runtime]

/-- What a call may hand over, by the orders that it meets in memory. -/
def Admits (accountId : String) (owner : String → String) (s : InMemoryOrderRepository) : Operation → Prop
  | .create orderId intent | .createOrGet orderId intent =>
      s.findByClientId (clientOrderId intent.accountId intent.intentKey) = none → NewOrder accountId s orderId intent
  | .applyVenueAck orderId venueOrderId _ _ => owner venueOrderId = orderId
  | .applyFill orderId fill _ => ∀ r ∈ s.find? orderId, AdmitsFill r fill
  | .reconcile orderId venueView venueReachable now =>
      ∀ r ∈ s.find? orderId, AdmitsView owner r venueView venueReachable now
  | .applyReconciliation orderId decision now => ∀ r ∈ s.find? orderId, AdmitsDecision owner r decision now
  -- the development store keeps the reopened version of an order when its resolution is refused
  | .resolveManually orderId toState _ _ _ =>
      ∀ r ∈ s.find? orderId, r.state = .unknown → canTransition .reconciling toState
  | .recover _ => ∀ r ∈ s.openRows, Quiet r
  | .markValidating .. | .markRiskRejected .. | .cancelBeforeSubmission .. | .markSubmitting .. | .markUnknown ..
  | .beginReconciliation .. => True

section Step

variable {s : InMemoryOrderRepository} {t : PostgresTables uuid accountId}

omit [Runtime] in
theorem silently_alike {α α' : Type} {Q : α → α' → Prop} {x : OrderM InMemoryOrderRepository α}
    {y : OrderM (PostgresTables uuid accountId) α'} (h : Alike (Mirrors owner) Q (x s) (y t)) :
    Alike (Mirrors owner) (fun _ _ => True) (silently x s) (silently y t) :=
  h.bind fun _ _ _ _ hs _ => alike_pure hs trivial

/-- An admitted call raises over both or over neither, and the tables still mirror the records. -/
theorem performOn_alike (hcanonical : uuid accountId = some accountId) (h : Mirrors owner s t) (op : Operation)
    (hop : Admits accountId owner s op) :
    Alike (Mirrors owner) (fun _ _ => True) (performOn op s) (performOn op t) := by
  cases op with
  | create orderId intent => exact silently_alike (create_alike hcanonical h hop)
  | createOrGet orderId intent => exact silently_alike (createOrGet_alike hcanonical h hop)
  | markValidating orderId now =>
      exact silently_alike (plain_alike hcanonical h (plain_withMove now .validating none) .validating)
  | markRiskRejected orderId code detail now =>
      exact silently_alike (plain_alike hcanonical h (plain_withRiskRejection now code detail) .rejected)
  | cancelBeforeSubmission orderId reason now =>
      exact silently_alike (cancelBeforeSubmission_alike hcanonical h reason)
  | markSubmitting orderId now =>
      exact silently_alike (plain_alike hcanonical h (plain_withMove now .submitted (some now)) .submitted)
  | applyVenueAck orderId venueOrderId state now => exact silently_alike (applyVenueAck_alike hcanonical h hop state)
  | markUnknown orderId reason now =>
      exact silently_alike (plain_alike hcanonical h (plain_withUnknown now reason) .unknown)
  | applyFill orderId fill now => exact silently_alike (applyFill_alike hcanonical h hop)
  | beginReconciliation orderId now =>
      exact silently_alike (plain_alike hcanonical h (plain_withAttempt now) .reconciling)
  | reconcile orderId venueView venueReachable now => exact silently_alike (reconcile_alike hcanonical h hop)
  | applyReconciliation orderId decision now => exact silently_alike (applyReconciliation_alike hcanonical h hop)
  | resolveManually orderId toState operator reason now =>
      exact silently_alike (resolveManually_alike hcanonical h toState operator reason)
  | recover now => exact silently_alike (recover_alike h now hop)

end Step

omit [Runtime] in
theorem mirrors_empty :
    Mirrors owner (RecordStore.empty : InMemoryOrderRepository)
      (PostgresTables.empty : PostgresTables uuid accountId) where
  orders := rfl
  fills := fun _ hr => absurd hr List.not_mem_nil
  discrepancies := fun _ hr => absurd hr List.not_mem_nil
  fillOrders := fun _ hf => absurd hf List.not_mem_nil
  discrepancyOrders := fun _ hd => absurd hd List.not_mem_nil
  sound := fun _ hr => absurd hr List.not_mem_nil
  clientIds := .nil

/-- What the reads of the two stores give: equal records, the open ones in any order, and none that is unreadable. -/
structure Agree (s : InMemoryOrderRepository) (t : PostgresTables uuid accountId) : Prop where
  get : ∀ orderId, ∃ found, Found s t found (OrderRepository.get orderId s) (OrderRepository.get orderId t)
  getByClientOrderId : ∀ clientOrderId, ∃ found, Found s t found
    (OrderRepository.getByClientOrderId clientOrderId s) (OrderRepository.getByClientOrderId clientOrderId t)
  openRecords : ∃ records ordered records', OrderRepository.openRecords s = .ok (records, s) ∧
    OrderRepository.openRecords t = .ok (records', t) ∧ ordered.Perm records ∧ List.Forall₂ Same ordered records'
  scanOpen : ∃ scan, OrderRepository.scanOpen t = .ok (scan, t) ∧ scan.unreadable = []

omit [Runtime] in
theorem agree_of_mirrors {s : InMemoryOrderRepository} {t : PostgresTables uuid accountId} (h : Mirrors owner s t) :
    Agree s t where
  get orderId := ⟨_, get_mirrors h orderId⟩
  getByClientOrderId clientOrderId := ⟨_, getByClientOrderId_mirrors h clientOrderId⟩
  openRecords := by
    obtain ⟨hmemory, records, htables, hsame⟩ := openRecords_mirrors h
    exact ⟨_, _, records, hmemory, htables, List.perm_insertionSort _ _, hsame⟩
  scanOpen := ⟨t.scan, rfl, (scan_mirrors h).1⟩

omit [Runtime]

/-! ### One order in both stores -/

def exampleAccount : String := "0d4b2a6e-8c1f-4e57-9a3d-5f6b7c8d9e01"

/-- Reads one account id, which is written as it is given back. -/
def exampleUuid (text : String) : Option String := if text = exampleAccount then some exampleAccount else none

@[reducible] def exampleRuntime : Runtime where
  blake2b canonical :=
    if canonical = "0d4b2a6e-8c1f-4e57-9a3d-5f6b7c8d9e01|testnet:BTCUSDT:BUY:k1" then
      uuidDigest
    else referenceRuntime.blake2b canonical
  upper := String.toUpper

def memoryPerform : Operation → OrderM InMemoryOrderRepository Unit := @performOn _ _ exampleRuntime

def tablesPerform : Operation → OrderM (PostgresTables exampleUuid exampleAccount) Unit :=
  @performOn _ _ exampleRuntime

def fillOnce : List Operation :=
  [.create "order-1" { exampleIntent with accountId := exampleAccount }, .markValidating "order-1" 1,
    .markSubmitting "order-1" 2, .applyVenueAck "order-1" "v1" .accepted 3,
    .applyFill "order-1" (exampleFill (1 / 5) fifthUnit_pos) 4]

theorem fits_of_units {value : Decimal} (units : ℤ) (hunits : value = units / usdtUnits)
    (hlimit : |value| < numericLimit) : Fits value :=
  ⟨⟨units, hunits⟩, hlimit⟩

theorem fillFits_exampleFill : FillFits (exampleFill (1 / 5) fifthUnit_pos) where
  price := fits_of_units 10000000000 (by norm_num [exampleFill, usdtUnits]) (by norm_num [exampleFill, numericLimit])
  quantity :=
    fits_of_units 20000000 (by norm_num [exampleFill, usdtUnits]) (by norm_num [exampleFill, numericLimit, abs])
  fee := fits_of_units 0 (by norm_num [exampleFill, usdtUnits]) (by norm_num [exampleFill, numericLimit])

theorem fillOnce_admitted :
    Along memoryPerform (@Admits exampleRuntime exampleAccount fun _ => "order-1") RecordStore.empty fillOnce := by
  have hmet : ((run memoryPerform RecordStore.empty (fillOnce.take 4)).find? "order-1").all (fun r =>
      decide (r.filledQuantity + 1 / 5 ≤ r.intent.quantity) && r.fills.isEmpty &&
        decide (r.filledQuantity = 0)) = true := by
    decide +kernel
  refine ⟨fun _ => ?_, trivial, trivial, rfl, ?_, trivial⟩
  · constructor
    case id => exact fun _ hq => absurd hq List.not_mem_nil
    case account => rfl
    case quantity =>
      exact fits_of_units 100000000 (by norm_num [exampleIntent, usdtUnits])
        (by norm_num [exampleIntent, numericLimit])
    case price =>
      intro p hp
      cases hp
  · intro r hr
    have hr := Option.all_eq_true _ _ |>.mp hmet r hr
    simp only [Bool.and_eq_true, decide_eq_true_eq, List.isEmpty_iff] at hr
    obtain ⟨⟨hwithin, hfills⟩, hfilled⟩ := hr
    refine ⟨fillFits_exampleFill, hwithin, fun _ => ⟨?_, ?_, fun _ => hfilled⟩⟩
    · rw [hfills]
      exact List.not_mem_nil
    · intro v hv
      cases hv

def exampleTrade (fillId : String) : OrderFill :=
  { exampleFill (1 / 5) fifthUnit_pos with fillId := fillId, venueTradeId := some "trade" }

def exampleDispute : ReconciliationDecision := { action := .recordDiscrepancy, detail := "disputed" }

/-- Runs that part the two stores. -/
def partings : List (List Operation) :=
  -- the tables take orders of their own account only, and only the durable store recovers
  [[.create "order-1" exampleIntent],
    fillOnce.take 3 ++ [.recover 4],
    -- one row for the fills of one id, none for a total that the venue gave, and no two of one trade id
    fillOnce ++ [.applyFill "order-1" (exampleFill (1 / 5) fifthUnit_pos) 5],
    fillOnce.take 4 ++ [.reconcile "order-1" (some (exampleView .partiallyFilled (1 / 5) fifthUnit_pos)) true 4,
      .applyFill "order-1" (exampleFill (1 / 5) fifthUnit_pos) 5],
    fillOnce.take 4 ++ [.applyFill "order-1" (exampleTrade "fill-1") 4, .applyFill "order-1" (exampleTrade "fill-2") 5],
    -- and one row for the notes of one time and text
    fillOnce ++ [.applyReconciliation "order-1" exampleDispute 5, .applyReconciliation "order-1" exampleDispute 5]]

/-- The state and the number of fills and of discrepancies of an order, where it can be read. -/
def outline {σ : Type} [OrderRepository σ] (s : σ) (orderId : String) : Option (OrderState × Nat × Nat) :=
  (OrderRepository.get orderId s).toOption.bind fun p =>
    p.1.map fun r => (r.state, r.fills.length, r.discrepancies.length)

theorem Agree.outline_eq {s : InMemoryOrderRepository} {t : PostgresTables uuid accountId} (h : Agree s t)
    (orderId : String) : outline s orderId = outline t orderId := by
  obtain ⟨found, hmemory, found', htables, hrel⟩ := h.get orderId
  rw [outline, outline, hmemory, htables]
  cases hrel with
  | none => rfl
  | some hsame =>
      obtain ⟨hfills, hdiscrepancies⟩ := hsame
      change some (_, _, _) = some (_, _, _)
      rw [hfills.length_eq, hdiscrepancies.length_eq]

/-- The two stores raise in other calls of a run, or do not agree at its end. -/
def Parts (ops : List Operation) : Prop :=
  ¬ (returns memoryPerform RecordStore.empty ops = returns tablesPerform PostgresTables.empty ops ∧
    Agree (run memoryPerform RecordStore.empty ops) (run tablesPerform PostgresTables.empty ops))

end Aetheris.OrderRefinement
