import Aetheris.Lib.Interleaving
import Aetheris.TestnetService
import Aetheris.OrderCalls
import Mathlib.Algebra.Order.BigOperators.Group.List

namespace Aetheris.TestnetWorld

open Lib Coroutine OrderRecords OrderStore OrderEngine OrderIdentity TestnetService

/-- The orders as they are stored, the records handed to the venue, and what it
said to each. -/
structure World (durable : Bool) where
  orders : RecordStore durable
  sent : List OrderRecord := []
  said : List (OrderRecord × VenueOrderView) := []

variable {durable : Bool} {α : Type}

namespace World

def commit (w : World durable) (orders : RecordStore durable) : World durable := { w with orders := orders }

def receive (w : World durable) (record : OrderRecord) : Except ServiceError VenueOrderView → World durable
  | .ok view => { w with sent := w.sent ++ [record], said := w.said ++ [(record, view)] }
  | .error _ => { w with sent := w.sent ++ [record] }

end World

/-- A step of the store, whole or not at all. A lost connection does not tell which. -/
def Commits (step : OrderM (RecordStore durable) α) (w : World durable) (r : Except ServiceError α)
    (w' : World durable) : Prop :=
  match step w.orders with
  | .ok (a, t) =>
      r = .ok a ∧ w' = w.commit t ∨
        (∃ message, r = .error (.order (.databaseUnavailable message))) ∧ (w' = w ∨ w' = w.commit t)
  | .error e =>
      (r = .error (.order e) ∨ ∃ message, r = .error (.order (.databaseUnavailable message))) ∧ w' = w

def commit (step : OrderM (RecordStore durable) α) (w : World durable) : Except ServiceError α × World durable :=
  match step w.orders with
  | .ok (a, t) => (.ok a, w.commit t)
  | .error e => (.error (.order e), w)

theorem commits_commit (step : OrderM (RecordStore durable) α) (w : World durable) :
    Commits step w (commit step w).1 (commit step w).2 := by
  unfold Commits commit
  cases step w.orders with
  | ok p => exact .inl ⟨rfl, rfl⟩
  | error e => exact ⟨.inl rfl, rfl⟩

variable [Runtime]

/-- A submission reaches the venue whatever becomes of its answer. A new order
id is one that no stored order has. -/
def exec : Semantics (Effect (RecordStore durable)) ServiceError (World durable)
  | _, .transact step, w, r, w' => Commits step w r w'
  | _, .createOrGet intent, w, r, w' =>
      ∃ orderId, w.orders.find? orderId = none ∧ Commits (createOrGet orderId intent) w r w'
  | _, .submit record, w, r, w' => w' = w.receive record r
  | _, _, w, _, w' => w' = w

def Submits (c : ServiceM (RecordStore durable) TestnetOrderResult) : Prop :=
  ∃ service request, c = submit service request

def unusedOrderId (s : RecordStore durable) : String :=
  String.ofList (List.replicate ((s.rows.map (fun r => r.orderId.length)).sum + 1) 'o')

omit [Runtime] in
theorem find?_unusedOrderId (s : RecordStore durable) : s.find? (unusedOrderId s) = none := by
  by_contra hn
  obtain ⟨r, hr⟩ := Option.ne_none_iff_exists'.mp hn
  have hlength : r.orderId.length ≤ (s.rows.map (fun r => r.orderId.length)).sum :=
    List.single_le_sum (fun _ _ => Nat.zero_le _) _ (List.mem_map.mpr ⟨r, RecordStore.mem_of_find? hr, rfl⟩)
  rw [RecordStore.orderId_of_find? hr, unusedOrderId, String.length_ofList, List.length_replicate] at hlength
  omega

def exampleVerdict : RiskVerdict where
  approved := true
  detail := ""
  leverage := { approvedLeverage := some 5, approvedLeverage_min := by simp }
  refused_code := by simp

/-- A world where everything is granted, and the venue answers each submission alike. -/
def grants (venue : Except ServiceError VenueOrderView) :
    {β : Type} → Effect (RecordStore true) β → World true → Except ServiceError β × World true
  | _, .utcnow, w => (.ok 10, w)
  | _, .requireOneWayMode, w => (.ok (), w)
  | _, .createOrGet intent, w => commit (createOrGet (unusedOrderId w.orders) intent) w
  | _, .transact step, w => commit step w
  | _, .rule _ _ _, w => (.ok (some exampleVerdict, ""), w)
  | _, .setLeverage _ leverage, w => (.ok leverage, w)
  | _, .setMarginMode _ _, w => (.ok (), w)
  | _, .marginMode _, w => (.ok .isolated, w)
  | _, .lastPrice _, w => (.ok (some 100), w)
  | _, .stepSize _, w => (.ok (1 / 1000), w)
  | _, .submit record, w => (venue, w.receive record venue)
  | _, .query _ _, w => (.ok none, w)
  | _, .cancel _ _, w => (.error (.exchange "unknown order"), w)

theorem exec_grants (venue : Except ServiceError VenueOrderView) {β : Type}
    (f : Effect (RecordStore true) β) (w : World true) : exec f w (grants venue f w).1 (grants venue f w).2 := by
  cases f with
  | createOrGet intent => exact ⟨unusedOrderId w.orders, find?_unusedOrderId w.orders, commits_commit _ w⟩
  | transact step => exact commits_commit step w
  | _ => rfl

end Aetheris.TestnetWorld
