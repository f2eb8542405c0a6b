import Aetheris.Lib.Transaction
import Aetheris.Lib.VersionedTable
import Aetheris.Lib.KeyedLoop
import Aetheris.OrderRecords
import Aetheris.OrderMachine

namespace Aetheris.OrderStore

open Lib Clock Enums OrderRecords OrderMachine

inductive OrderError
  | illegalTransition (error : IllegalTransitionError)
  | keyError (message : String)
  | duplicateClientOrderId (message : String)
  | valueError (message : String)
  | databaseUnavailable (message : String)
  -- a stored row that fails the record's own validation when it is loaded
  | validationError (orderId : String)
  deriving DecidableEq, Repr

abbrev OrderM (σ : Type) := Transaction σ OrderError

structure UnreadableOrder where
  orderId : String
  state : OrderState
  reason : String

structure OpenOrderScan where
  records : List OrderRecord := []
  unreadable : List UnreadableOrder := []

/-- Orders that forbid a new entry. Unreadable orders count. -/
def OpenOrderScan.blocking (scan : OpenOrderScan) : Nat :=
  (scan.records.filter OrderRecord.isUnreconciled).length + scan.unreadable.length

/-- Storage for order records. Each method is one atomic step; `locked` is
`get` inside the step that goes on to write. -/
class OrderRepository (σ : Type) where
  durable : Bool
  add : OrderRecord → OrderM σ OrderRecord
  addOrGet : OrderRecord → OrderM σ (OrderRecord × Bool)
  update : OrderRecord → OrderM σ OrderRecord
  get : String → OrderM σ (Option OrderRecord)
  getByClientOrderId : String → OrderM σ (Option OrderRecord)
  allRecords : OrderM σ (List OrderRecord)
  openRecords : OrderM σ (List OrderRecord)
  scanOpen : OrderM σ OpenOrderScan
  recordUnreadable : String → String → Timestamp → OrderM σ Unit

/-- Records in insertion order under their order id. The development store
(`durable = false`) hands back what it was given; a durable one validates
every record it loads and lets no two orders share a venue order id. -/
structure RecordStore (durable : Bool) where
  table : VersionedTable OrderRecord.orderId

abbrev InMemoryOrderRepository := RecordStore false

abbrev PostgresOrderRepository := RecordStore true

namespace RecordStore

variable {durable : Bool}

def empty : RecordStore durable := ⟨.empty _⟩

def find? (s : RecordStore durable) (orderId : String) : Option OrderRecord := s.table.find? orderId

def put (s : RecordStore durable) (r : OrderRecord) : RecordStore durable := ⟨s.table.put r⟩

def rows (s : RecordStore durable) : List OrderRecord := s.table.rows

def stored (s : RecordStore durable) : List OrderRecord := s.table.stored

def versions (s : RecordStore durable) (orderId : String) : List OrderRecord :=
  Lib.versions OrderRecord.orderId orderId s.stored

/-- A durable store keeps one row for the fills of one id, and a record that
lost a fill so does not add up when it is loaded. -/
def readable (durable : Bool) (r : OrderRecord) : Bool :=
  !durable || r.validates && decide (r.fills.map OrderFill.fillId).Nodup

def load (r : OrderRecord) : OrderM (RecordStore durable) OrderRecord :=
  if readable durable r then pure r else throw (.validationError r.orderId)

def loadOption : Option OrderRecord → OrderM (RecordStore durable) (Option OrderRecord)
  | none => pure none
  | some r => do return some (← load r)

def findByClientId (s : RecordStore durable) (clientOrderId : String) : Option OrderRecord :=
  s.rows.find? (fun r => r.clientOrderId = clientOrderId)

def get (orderId : String) : OrderM (RecordStore durable) (Option OrderRecord) :=
  fun s => loadOption (s.find? orderId) s

def getByClientOrderId (clientOrderId : String) : OrderM (RecordStore durable) (Option OrderRecord) :=
  fun s => loadOption (s.findByClientId clientOrderId) s

/-- The unique constraint on venue order ids, met when a row takes a new one. -/
def venueIdTaken (s : RecordStore durable) (r : OrderRecord) : Bool :=
  durable && r.venueOrderId.isSome && (s.find? r.orderId).bind OrderRecord.venueOrderId ≠ r.venueOrderId &&
    s.rows.any (fun q => q.orderId ≠ r.orderId && q.venueOrderId = r.venueOrderId)

def venueIdTakenMessage : String := "integrity constraint violated: uq_orders_account_venue_order_id"

def duplicateMessage (r : OrderRecord) : String :=
  let client := r.clientOrderId
  s!"An order with client id {client} already exists. " ++
  "Identity is derived from intent, so a duplicate means the same intent " ++
  "was submitted twice -- which is exactly what the identity exists to " ++
  "prevent."

def add (r : OrderRecord) : OrderM (RecordStore durable) OrderRecord := fun s =>
  let orderId := r.orderId
  if (s.findByClientId r.clientOrderId).isSome then
    .error (.duplicateClientOrderId (duplicateMessage r))
  -- the dictionary overwrites; the database refuses a second primary key
  else if durable && (s.find? r.orderId).isSome then
    .error (.valueError (s!"order id {orderId} is already in use. Local order ids must be " ++
      "unique across every process and every restart."))
  else if s.venueIdTaken r then .error (.databaseUnavailable venueIdTakenMessage)
  else .ok (r, s.put r)

def addOrGet (r : OrderRecord) : OrderM (RecordStore durable) (OrderRecord × Bool) := do
  match ← getByClientOrderId r.clientOrderId with
  | some existing => return (existing, false)
  | none => return (← add r, true)

def update (r : OrderRecord) : OrderM (RecordStore durable) OrderRecord := fun s =>
  let orderId := r.orderId
  if (s.find? r.orderId).isNone then .error (.keyError s!"No order {orderId} to update")
  else if s.venueIdTaken r then .error (.databaseUnavailable venueIdTakenMessage)
  else .ok (r, s.put r)

def loadAll (rows : List OrderRecord) : OrderM (RecordStore durable) (List OrderRecord) :=
  rows.mapM load

def openRows (s : RecordStore durable) : List OrderRecord := s.rows.filter (fun r => !r.isTerminal)

def unreadableOrder (r : OrderRecord) : UnreadableOrder := ⟨r.orderId, r.state, "ValidationError"⟩

/-- The recovery sweep's read: one bad row must not hide the good ones. -/
def scan (s : RecordStore durable) : OpenOrderScan where
  records := s.openRows.filter (readable durable)
  unreadable := (s.openRows.filter (fun r => !readable durable r)).map unreadableOrder

def withUnreadable (r : OrderRecord) (detail : String) (now : Timestamp) : OrderRecord :=
  { r with discrepancies := r.discrepancies ++ [⟨now, detail, r.state, none⟩] }

/-- A discrepancy row beside an order that is not loaded. The development
store holds nothing it cannot read, and refuses. -/
def recordUnreadable (orderId detail : String) (now : Timestamp) : OrderM (RecordStore durable) Unit :=
  fun s =>
    match durable, s.find? orderId with
    | true, some r => .ok ((), s.put (withUnreadable r detail now))
    | _, _ => .error (.keyError s!"No order {orderId}")

instance : OrderRepository (RecordStore durable) where
  durable := durable
  add := add
  addOrGet := addOrGet
  update := update
  get := get
  getByClientOrderId := getByClientOrderId
  allRecords := fun s => loadAll s.rows s
  openRecords := fun s => loadAll s.openRows s
  scanOpen := fun s => .ok (s.scan, s)
  recordUnreadable := recordUnreadable

@[simp] theorem find?_empty (orderId : String) : (empty : RecordStore durable).find? orderId = none := rfl

@[simp] theorem stored_empty : (empty : RecordStore durable).stored = [] := rfl

theorem find?_put (s : RecordStore durable) (r : OrderRecord) (orderId : String) :
    (s.put r).find? orderId = if r.orderId = orderId then some r else s.find? orderId :=
  s.table.find?_put r orderId

@[simp] theorem find?_put_self (s : RecordStore durable) (r : OrderRecord) :
    (s.put r).find? r.orderId = some r :=
  s.table.find?_put_self r

theorem find?_put_of_ne (s : RecordStore durable) {r : OrderRecord} {orderId : String}
    (h : r.orderId ≠ orderId) : (s.put r).find? orderId = s.find? orderId :=
  s.table.find?_put_of_ne h

theorem turn_put {Q : OrderRecord → OrderRecord → Prop} (s : RecordStore durable) (r r' : OrderRecord)
    (hid : r'.orderId = r.orderId) (hq : Q r r') : Turn find? OrderRecord.orderId Q r s (s.put r') := by
  constructor
  · exact ⟨r', by rw [← hid, find?_put_self], hq⟩
  · exact fun orderId hne => find?_put_of_ne s (by rw [hid]; exact hne)

@[simp] theorem stored_put (s : RecordStore durable) (r : OrderRecord) :
    (s.put r).stored = s.stored ++ [r] := rfl

theorem mem_put (s : RecordStore durable) (r b : OrderRecord) :
    b ∈ (s.put r).rows ↔ b = r ∨ b ∈ s.rows ∧ b.orderId ≠ r.orderId :=
  s.table.mem_put r b

theorem orderId_of_find? {s : RecordStore durable} {orderId : String} {r : OrderRecord}
    (h : s.find? orderId = some r) : r.orderId = orderId :=
  VersionedTable.key_of_find? h

theorem mem_rows_iff {s : RecordStore durable} {r : OrderRecord} :
    r ∈ s.rows ↔ s.find? r.orderId = some r :=
  VersionedTable.mem_rows_iff

theorem mem_of_find? {s : RecordStore durable} {orderId : String} {r : OrderRecord}
    (h : s.find? orderId = some r) : r ∈ s.rows :=
  VersionedTable.mem_of_find? h

theorem mem_stored_of_find? {s : RecordStore durable} {orderId : String} {r : OrderRecord}
    (h : s.find? orderId = some r) : r ∈ s.stored :=
  VersionedTable.mem_stored_of_find? h

theorem load_ok {r : OrderRecord} {s : RecordStore durable} {p : OrderRecord × RecordStore durable} :
    load r s = .ok p ↔ readable durable r ∧ p = (r, s) := by
  unfold load
  split
  · rename_i h
    simp [Transaction.pure_ok, h]
  · rename_i h
    simp [Transaction.throw_ok, h]

theorem loadOption_ok {o : Option OrderRecord} {s : RecordStore durable}
    {p : Option OrderRecord × RecordStore durable} :
    loadOption o s = .ok p ↔ (∀ r ∈ o, readable durable r) ∧ p = (o, s) := by
  cases o with
  | none => simp [loadOption, Transaction.pure_ok]
  | some r =>
      simp only [loadOption, Transaction.bind_ok, load_ok, Transaction.pure_ok, Prod.mk.injEq,
        Option.mem_some_iff, forall_eq']
      constructor
      · rintro ⟨a, t, ⟨hr, rfl, rfl⟩, rfl⟩
        exact ⟨hr, rfl⟩
      · rintro ⟨hr, rfl⟩
        exact ⟨r, s, ⟨hr, rfl, rfl⟩, rfl⟩

theorem get_ok {orderId : String} {s : RecordStore durable} {p : Option OrderRecord × RecordStore durable} :
    OrderRepository.get orderId s = .ok p ↔
      (∀ r, s.find? orderId = some r → readable durable r) ∧ p = (s.find? orderId, s) :=
  loadOption_ok

theorem venueIdTaken_of_eq {s : RecordStore durable} {r r' : OrderRecord}
    (h : s.find? r.orderId = some r) (hid : r'.orderId = r.orderId)
    (hv : r'.venueOrderId = r.venueOrderId) : s.venueIdTaken r' = false := by
  simp [venueIdTaken, hid, h, hv]

theorem venueIdTaken_of_none {s : RecordStore durable} {r : OrderRecord} (h : r.venueOrderId = none) :
    s.venueIdTaken r = false := by
  simp [venueIdTaken, h]

theorem update_ok {r : OrderRecord} {s : RecordStore durable} {p : OrderRecord × RecordStore durable} :
    OrderRepository.update r s = .ok p ↔
      (s.find? r.orderId).isSome ∧ s.venueIdTaken r = false ∧ p = (r, s.put r) := by
  change update r s = .ok p ↔ _
  unfold update
  split
  · rename_i h
    simp [Option.isNone_iff_eq_none.mp h]
  · rename_i h
    split
    · rename_i hv
      simp [hv]
    · rename_i hv
      have hs : (s.find? r.orderId).isSome := by simpa [Option.isSome_iff_ne_none] using h
      have hv : s.venueIdTaken r = false := by simpa using hv
      simp only [hs, hv, true_and, Except.ok.injEq, eq_comm]

theorem add_ok {r : OrderRecord} {s : RecordStore durable} {p : OrderRecord × RecordStore durable} :
    OrderRepository.add r s = .ok p ↔
      s.findByClientId r.clientOrderId = none ∧ (durable = true → s.find? r.orderId = none) ∧
        s.venueIdTaken r = false ∧ p = (r, s.put r) := by
  change add r s = .ok p ↔ _
  unfold add
  split
  · rename_i h
    obtain ⟨b, hb⟩ := Option.isSome_iff_exists.mp h
    simp [hb]
  · rename_i h
    have hn : s.findByClientId r.clientOrderId = none := by simpa using h
    split
    · rename_i hd
      obtain ⟨hd, hs⟩ := Bool.and_eq_true_iff.mp hd
      obtain ⟨b, hb⟩ := Option.isSome_iff_exists.mp hs
      simp [hd, hb]
    · rename_i hd
      have hs : durable = true → s.find? r.orderId = none := by
        intro ht
        simpa [ht] using hd
      split
      · rename_i hv
        simp [hv]
      · rename_i hv
        have hv : s.venueIdTaken r = false := by simpa using hv
        simp only [hn, hv, true_and, Except.ok.injEq]
        exact ⟨fun he => ⟨hs, he.symm⟩, fun he => he.2.symm⟩

theorem addOrGet_ok {r : OrderRecord} {s : RecordStore durable}
    {p : (OrderRecord × Bool) × RecordStore durable} :
    OrderRepository.addOrGet r s = .ok p ↔
      (∃ existing, s.findByClientId r.clientOrderId = some existing ∧ readable durable existing ∧
        p = ((existing, false), s)) ∨
      (s.findByClientId r.clientOrderId = none ∧ (durable = true → s.find? r.orderId = none) ∧
        s.venueIdTaken r = false ∧ p = ((r, true), s.put r)) := by
  change addOrGet r s = .ok p ↔ _
  unfold addOrGet
  rw [Transaction.bind_ok]
  constructor
  · rintro ⟨found, t, hf, h⟩
    obtain ⟨hr, he⟩ := loadOption_ok.mp hf
    cases he
    cases hfound : s.findByClientId r.clientOrderId with
    | some existing =>
        rw [hfound] at h hr
        exact .inl ⟨existing, rfl, hr existing rfl, Transaction.pure_ok.mp h⟩
    | none =>
        rw [hfound] at h
        obtain ⟨a, t, ha, h⟩ := Transaction.bind_ok.mp h
        obtain ⟨_, hid, hv, he⟩ := add_ok.mp ha
        cases he
        exact .inr ⟨rfl, hid, hv, Transaction.pure_ok.mp h⟩
  · rintro (⟨existing, hf, hr, rfl⟩ | ⟨hf, hid, hv, rfl⟩)
    · refine ⟨some existing, s, ?_, rfl⟩
      exact loadOption_ok.mpr ⟨by simpa [hf] using hr, by rw [hf]⟩
    · refine ⟨none, s, loadOption_ok.mpr ⟨by simp [hf], by rw [hf]⟩, ?_⟩
      exact Transaction.bind_ok.mpr ⟨r, s.put r, add_ok.mpr ⟨hf, hid, hv, rfl⟩, rfl⟩

theorem clientOrderId_ne_of_findByClientId {s : RecordStore durable} {clientOrderId : String}
    (h : s.findByClientId clientOrderId = none) : ∀ r ∈ s.rows, r.clientOrderId ≠ clientOrderId := by
  simpa [findByClientId] using h

theorem mem_scan_records {s : RecordStore durable} {r : OrderRecord} :
    r ∈ s.scan.records ↔ r ∈ s.rows ∧ r.isTerminal = false ∧ readable durable r := by
  simp only [scan, openRows, List.mem_filter, Bool.not_eq_true', and_assoc]

theorem nodup_scan_records (s : RecordStore durable) : (s.scan.records.map OrderRecord.orderId).Nodup := by
  have hsub : s.scan.records.Sublist s.rows := List.filter_sublist.trans List.filter_sublist
  exact (hsub.map OrderRecord.orderId).nodup s.table.nodup

theorem recordUnreadable_ok {orderId detail : String} {now : Timestamp} {s : RecordStore durable}
    {p : Unit × RecordStore durable} :
    OrderRepository.recordUnreadable orderId detail now s = .ok p ↔
      durable = true ∧ ∃ r, s.find? orderId = some r ∧ p = ((), s.put (withUnreadable r detail now)) := by
  change recordUnreadable orderId detail now s = .ok p ↔ _
  unfold recordUnreadable
  cases durable with
  | false => simp
  | true =>
      cases h : s.find? orderId with
      | none => simp
      | some r => simp [eq_comm]

end RecordStore

end Aetheris.OrderStore
