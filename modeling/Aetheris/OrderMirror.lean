import Aetheris.Lib.Paired
import Aetheris.OrderCalls
import Aetheris.OrderTables
import Mathlib.Data.List.Perm.Basic

namespace Aetheris.OrderMirror

open Lib Paired Money Clock Enums OrderRecords OrderMachine OrderStore OrderEngine OrderCalls OrderTables
open RecordStore (readable)
open PostgresTables (fillRow discrepancyRow)

variable {durable : Bool} {uuid : String → Option String} {accountId : String} {owner : String → String}

/-! ### Rows as they stand for records -/

/-- A number that a `NUMERIC(24, 8)` column holds as it is. -/
def Fits (value : Decimal) : Prop := EightPlaces value ∧ |value| < numericLimit

theorem numeric_of_fits {value : Decimal} (h : Fits value) : numeric value = some value := by
  rw [numeric, quantizeUsdt_of_eightPlaces h.1]
  exact if_pos h.2

theorem mapM_numeric {x : Option Decimal} (h : ∀ value ∈ x, Fits value) : x.mapM numeric = some x := by
  cases x with
  | none => rfl
  | some value =>
      rw [Option.mapM_some, numeric_of_fits (h value rfl)]
      rfl

def plainRow (r : OrderRecord) : OrderRow where
  orderId := r.orderId
  clientOrderId := r.clientOrderId
  venueOrderId := r.venueOrderId
  state := r.state
  symbol := r.intent.symbol
  side := r.intent.side
  orderType := r.intent.orderType
  mode := r.intent.mode
  origin := r.intent.origin
  intentKey := r.intent.intentKey
  reduceOnly := r.intent.reduceOnly
  quantity := r.intent.quantity
  price := r.intent.price
  filledQuantity := r.filledQuantity
  averageFillPrice := r.averageFillPrice
  createdAt := r.createdAt
  updatedAt := r.updatedAt
  submittedAt := r.submittedAt
  terminalAt := r.terminalAt
  rejectionCode := r.rejectionCode
  rejectionDetail := r.rejectionDetail
  venueRejection := r.venueRejection
  reconciliationAttempts := r.reconciliationAttempts
  lastReconciledAt := r.lastReconciledAt
  reconciliationDetail := r.reconciliationDetail
  venueStatusRaw := r.venueStatusRaw
  lastPolledAt := r.lastPolledAt
  venueLeverage := r.venueLeverage
  venueMarginMode := r.venueMarginMode
  resolvedByOperator := r.resolvedByOperator
  operatorReason := r.operatorReason

def plainFill (orderId : String) (fill : OrderFill) : OrderFillRow :=
  ⟨orderId, fill.fillId, fill.venueTradeId, fill.price, fill.quantity, fill.fee, fill.filledAt⟩

structure FillFits (fill : OrderFill) : Prop where
  price : Fits fill.price
  quantity : Fits fill.quantity
  fee : Fits fill.fee

theorem fillRow_of_fits {fill : OrderFill} (h : FillFits fill) (orderId : String) :
    fillRow orderId fill = some (plainFill orderId fill) := by
  rw [fillRow, numeric_of_fits h.price, numeric_of_fits h.quantity, numeric_of_fits h.fee]
  rfl

theorem fill?_plainFill (orderId : String) (fill : OrderFill) : (plainFill orderId fill).fill? = some fill := by
  rw [OrderFillRow.fill?, dif_pos ⟨fill.price_pos, fill.quantity_pos, fill.fee_nonneg⟩]
  rfl

def noteKey (discrepancy : OrderDiscrepancy) : Timestamp × String := (discrepancy.observedAt, discrepancy.detail)

/-- A record that the tables can hold, and give back when it is read. -/
structure Sound (accountId : String) (owner : String → String) (r : OrderRecord) : Prop where
  account : r.intent.accountId = accountId
  created : r.intent.createdAt = r.createdAt
  quantity : Fits r.intent.quantity
  price : ∀ p ∈ r.intent.price, Fits p
  filled : Fits r.filledQuantity
  average : ∀ p ∈ r.averageFillPrice, Fits p
  leverage : ∀ x ∈ r.venueLeverage, Fits x ∧ 0 < x
  fills : ∀ f ∈ r.fills, FillFits f
  filled_nonneg : 0 ≤ r.filledQuantity
  total : r.fills ≠ [] → OrderRecord.fillTotal r.fills = r.filledQuantity
  fillIds : (r.fills.map OrderFill.fillId).Nodup
  tradeIds : (r.fills.filterMap OrderFill.venueTradeId).Nodup
  notes : (r.discrepancies.map noteKey).Nodup
  venue : ∀ v ∈ r.venueOrderId, owner v = r.orderId

/-- The same record, but for the order of its fills and of its discrepancies. -/
inductive Same (r : OrderRecord) : OrderRecord → Prop
  | intro {fills : List OrderFill} {discrepancies : List OrderDiscrepancy} (hfills : fills.Perm r.fills)
      (hdiscrepancies : discrepancies.Perm r.discrepancies) :
      Same r { r with fills := fills, discrepancies := discrepancies }

theorem columns_of_sound {r : OrderRecord} (h : Sound accountId owner r) : columns r = some (plainRow r) := by
  rw [columns, numeric_of_fits h.quantity, mapM_numeric h.price, numeric_of_fits h.filled, mapM_numeric h.average,
    mapM_numeric fun x hx => (h.leverage x hx).1]
  rfl

theorem intent?_plainRow {r : OrderRecord} (h : Sound accountId owner r) :
    (plainRow r).intent? accountId = some r.intent := by
  have hpositive : 0 < (plainRow r).quantity ∧ ∀ p ∈ (plainRow r).price, 0 < p :=
    ⟨r.intent.quantity_pos, r.intent.price_pos⟩
  rw [OrderRow.intent?, dif_pos hpositive]
  obtain ⟨rfl, hcreated⟩ := And.intro h.account h.created
  cases r
  dsimp only at hcreated
  subst hcreated
  rfl

namespace Same

variable {r r' : OrderRecord}

theorem refl (r : OrderRecord) : Same r r := .intro (.refl _) (.refl _)

theorem plainRow_eq (h : Same r r') : plainRow r' = plainRow r := by
  cases h
  rfl

theorem fills (h : Same r r') : r'.fills.Perm r.fills := by
  cases h
  assumption

theorem discrepancies (h : Same r r') : r'.discrepancies.Perm r.discrepancies := by
  cases h
  assumption

theorem orderId (h : Same r r') : r'.orderId = r.orderId := by
  cases h
  rfl

theorem clientOrderId (h : Same r r') : r'.clientOrderId = r.clientOrderId := by
  cases h
  rfl

theorem venueOrderId (h : Same r r') : r'.venueOrderId = r.venueOrderId := by
  cases h
  rfl

theorem intent (h : Same r r') : r'.intent = r.intent := by
  cases h
  rfl

theorem state (h : Same r r') : r'.state = r.state := by
  cases h
  rfl

end Same

theorem fillTotal_perm {fills fills' : List OrderFill} (h : fills'.Perm fills) :
    OrderRecord.fillTotal fills' = OrderRecord.fillTotal fills := (h.map _).sum_eq

theorem Sound.same {r r' : OrderRecord} (h : Sound accountId owner r) (hsame : Same r r') :
    Sound accountId owner r' := by
  obtain ⟨hfills, hdiscrepancies⟩ := hsame
  constructor
  case account => exact h.account
  case created => exact h.created
  case quantity => exact h.quantity
  case price => exact h.price
  case filled => exact h.filled
  case average => exact h.average
  case leverage => exact h.leverage
  case fills => exact fun f hf => h.fills f (hfills.mem_iff.mp hf)
  case filled_nonneg => exact h.filled_nonneg
  case total =>
    intro hne
    rw [fillTotal_perm hfills]
    exact h.total fun hnil => hne (by rw [hnil] at hfills; exact hfills.eq_nil)
  case fillIds => exact (hfills.map _).nodup_iff.mpr h.fillIds
  case tradeIds => exact (hfills.filterMap _).nodup_iff.mpr h.tradeIds
  case notes => exact (hdiscrepancies.map _).nodup_iff.mpr h.notes
  case venue => exact h.venue

theorem validates_of_sound {r : OrderRecord} (h : Sound accountId owner r) : r.validates = true := by
  have hleverage : r.venueLeverage.all (fun x => decide (0 < x)) = true := by
    cases hx : r.venueLeverage with
    | none => rfl
    | some x => exact decide_eq_true (h.leverage x hx).2
  have htotal : r.fillsAgreeWithFilledQuantity = true := by
    rw [OrderRecord.fillsAgreeWithFilledQuantity, Bool.or_eq_true, List.isEmpty_iff, decide_eq_true_iff]
    exact or_iff_not_imp_left.mpr h.total
  rw [OrderRecord.validates, hleverage, htotal, decide_eq_true h.filled_nonneg]
  rfl

theorem readable_of_sound {r : OrderRecord} (h : Sound accountId owner r) : readable durable r = true := by
  rw [readable, validates_of_sound h, decide_eq_true h.fillIds]
  cases durable <;> rfl

/-! ### A store beside the tables -/

/-- The tables have a row for each record, and the children of each record and no others. -/
structure Mirrors (owner : String → String) (s : RecordStore durable) (t : PostgresTables uuid accountId) : Prop where
  orders : t.orders = s.rows.map plainRow
  fills : ∀ r ∈ s.rows, (t.fillsOf r.orderId).Perm (r.fills.map (plainFill r.orderId))
  discrepancies : ∀ r ∈ s.rows,
    (t.discrepanciesOf r.orderId).Perm (r.discrepancies.map (discrepancyRow r.orderId))
  fillOrders : ∀ f ∈ t.fills, f.orderId ∈ s.rows.map OrderRecord.orderId
  discrepancyOrders : ∀ d ∈ t.discrepancies, d.orderId ∈ s.rows.map OrderRecord.orderId
  sound : ∀ r ∈ s.rows, Sound accountId owner r
  clientIds : (s.rows.map OrderRecord.clientOrderId).Nodup

theorem mapM_filterMap {α β : Type} {f : α → Option β} {xs : List α} (h : ∀ x ∈ xs, (f x).isSome) :
    xs.mapM f = some (xs.filterMap f) := by
  induction xs with
  | nil => rfl
  | cons x xs ih =>
      obtain ⟨y, hy⟩ := Option.isSome_iff_exists.mp (h x List.mem_cons_self)
      rw [List.mapM_cons, hy, List.filterMap_cons, hy, ih fun z hz => h z (List.mem_cons_of_mem x hz)]
      rfl

/-- Rows of fills read as those fills. -/
theorem mapM_fill? {orderId : String} {rows : List OrderFillRow} {fills : List OrderFill}
    (h : rows.Perm (fills.map (plainFill orderId))) :
    ∃ read, rows.mapM OrderFillRow.fill? = some read ∧ read.Perm fills := by
  refine ⟨rows.filterMap OrderFillRow.fill?, mapM_filterMap ?_, ?_⟩
  · intro row hrow
    obtain ⟨fill, -, rfl⟩ := List.mem_map.mp (h.mem_iff.mp hrow)
    rw [fill?_plainFill]
    rfl
  · have hread := h.filterMap OrderFillRow.fill?
    rw [List.filterMap_map] at hread
    have hself : (OrderFillRow.fill? ∘ plainFill orderId) = some := funext (fill?_plainFill orderId)
    rwa [hself, List.filterMap_some] at hread

variable {s : RecordStore durable} {t : PostgresTables uuid accountId}

/-- A record that the tables hold is read as it was, and the tables call none unreadable. -/
theorem hydrate_mirrors (h : Mirrors owner s t) {r : OrderRecord} (hr : r ∈ s.rows) :
    ∃ r', t.hydrate (plainRow r) = some r' ∧ Same r r' := by
  have hsound := h.sound r hr
  obtain ⟨fills, hread, hfills⟩ := mapM_fill? ((List.perm_insertionSort EarlierFill _).trans (h.fills r hr))
  have hdiscrepancies := (((t.discrepanciesOf r.orderId).perm_insertionSort
    (fun d e => d.observedAt ≤ e.observedAt)).trans (h.discrepancies r hr)).map OrderDiscrepancyRow.discrepancy
  rw [List.map_map] at hdiscrepancies
  have hself : (OrderDiscrepancyRow.discrepancy ∘ discrepancyRow r.orderId) = id := rfl
  rw [hself, List.map_id] at hdiscrepancies
  have hsame : Same r { r with
      fills := fills
      discrepancies := ((t.discrepanciesOf r.orderId).insertionSort fun d e => d.observedAt ≤ e.observedAt).map
        OrderDiscrepancyRow.discrepancy } := .intro hfills hdiscrepancies
  refine ⟨_, ?_, hsame⟩
  have hvalidates := validates_of_sound (hsound.same hsame)
  have hintent := intent?_plainRow hsound
  have hown : t.fillsOf (plainRow r).orderId = t.fillsOf r.orderId := rfl
  simp only [PostgresTables.hydrate, hown, hread, hintent, Option.bind_eq_bind, Option.bind_some]
  exact if_pos hvalidates

theorem row?_mirrors (h : Mirrors owner s t) (orderId : String) : t.row? orderId = (s.find? orderId).map plainRow := by
  rw [PostgresTables.row?, h.orders, List.find?_map]
  rfl

theorem find?_client_mirrors (h : Mirrors owner s t) (clientOrderId : String) :
    (t.orders.find? fun row => row.clientOrderId = clientOrderId) = (s.findByClientId clientOrderId).map plainRow := by
  rw [h.orders, List.find?_map]
  rfl

theorem load_mirrors (h : Mirrors owner s t) {r : OrderRecord} (hr : r ∈ s.rows) :
    ∃ r', PostgresTables.load (plainRow r) t = .ok (r', t) ∧ Same r r' := by
  obtain ⟨r', hread, hsame⟩ := hydrate_mirrors h hr
  refine ⟨r', ?_, hsame⟩
  rw [PostgresTables.load, hread]

/-- Nothing moves, and what is found is the same. -/
abbrev Found (s : RecordStore durable) (t : PostgresTables uuid accountId) (found : Option OrderRecord)
    (x : Except OrderError (Option OrderRecord × RecordStore durable))
    (x' : Except OrderError (Option OrderRecord × PostgresTables uuid accountId)) : Prop :=
  x = .ok (found, s) ∧ ∃ found', x' = .ok (found', t) ∧ Option.Rel Same found found'

theorem loadOption_mirrors (h : Mirrors owner s t) (found : Option OrderRecord) (hfound : ∀ r ∈ found, r ∈ s.rows) :
    Found s t found (RecordStore.loadOption found s) (PostgresTables.loadOption (found.map plainRow) t) := by
  refine ⟨RecordStore.loadOption_ok.mpr ⟨fun r hr => readable_of_sound (h.sound r (hfound r hr)), rfl⟩, ?_⟩
  cases found with
  | none => exact ⟨none, rfl, .none⟩
  | some r =>
      obtain ⟨r', hload, hsame⟩ := load_mirrors h (hfound r rfl)
      exact ⟨some r', Transaction.bind_of_ok hload, .some hsame⟩

theorem get_mirrors (h : Mirrors owner s t) (orderId : String) :
    Found s t (s.find? orderId) (OrderRepository.get orderId s) (OrderRepository.get orderId t) := by
  have hget := loadOption_mirrors h (s.find? orderId) fun r hr => RecordStore.mem_of_find? hr
  rw [← row?_mirrors h] at hget
  exact hget

theorem getByClientOrderId_mirrors (h : Mirrors owner s t) (clientOrderId : String) :
    Found s t (s.findByClientId clientOrderId) (OrderRepository.getByClientOrderId clientOrderId s)
      (OrderRepository.getByClientOrderId clientOrderId t) := by
  have hget := loadOption_mirrors h (s.findByClientId clientOrderId) fun r hr => List.mem_of_find?_eq_some hr
  rw [← find?_client_mirrors h] at hget
  exact hget

/-- The open records in the order that the tables give them in. -/
def openInOrder (s : RecordStore durable) : List OrderRecord :=
  s.openRows.insertionSort fun a b => a.createdAt ≤ b.createdAt

theorem mem_openInOrder {r : OrderRecord} : r ∈ openInOrder s ↔ r ∈ s.rows ∧ r.isTerminal = false := by
  rw [openInOrder, (List.perm_insertionSort _ _).mem_iff, RecordStore.openRows, List.mem_filter, Bool.not_eq_true']

theorem openRows_mirrors (h : Mirrors owner s t) : t.openRows = (openInOrder s).map plainRow := by
  rw [PostgresTables.openRows, PostgresTables.byCreation, h.orders, List.filter_map, openInOrder]
  symm
  apply List.map_insertionSort
  exact fun _ _ _ _ => Iff.rfl

/-- Rows of records are all read, each as it was. -/
theorem loadAll_mirrors (h : Mirrors owner s t) {rows : List OrderRecord} (hrows : ∀ r ∈ rows, r ∈ s.rows) :
    ∃ records, (rows.map plainRow).mapM PostgresTables.load t = .ok (records, t) ∧
      List.Forall₂ Same rows records := by
  induction rows with
  | nil => exact ⟨[], rfl, .nil⟩
  | cons r rest ih =>
      obtain ⟨r', hload, hsame⟩ := load_mirrors h (hrows r List.mem_cons_self)
      obtain ⟨records, hrest, hall⟩ := ih fun q hq => hrows q (List.mem_cons_of_mem r hq)
      refine ⟨r' :: records, ?_, .cons hsame hall⟩
      rw [List.map_cons, List.mapM_cons, Transaction.bind_of_ok hload, Transaction.bind_of_ok hrest]
      rfl

theorem openRecords_mirrors (h : Mirrors owner s t) :
    OrderRepository.openRecords s = .ok (s.openRows, s) ∧
      ∃ records, OrderRepository.openRecords t = .ok (records, t) ∧ List.Forall₂ Same (openInOrder s) records := by
  constructor
  · change RecordStore.loadAll s.openRows s = _
    have hopen : ∀ r ∈ s.openRows, readable durable r := fun r hr =>
      readable_of_sound (h.sound r (List.mem_of_mem_filter hr))
    unfold RecordStore.loadAll
    generalize s.openRows = rows at hopen ⊢
    induction rows with
    | nil => rfl
    | cons r rest ih =>
        have hload : RecordStore.load r s = .ok (r, s) :=
          RecordStore.load_ok.mpr ⟨hopen r List.mem_cons_self, rfl⟩
        have hrest := ih fun q hq => hopen q (List.mem_cons_of_mem r hq)
        rw [List.mapM_cons, Transaction.bind_of_ok hload, Transaction.bind_of_ok hrest]
        rfl
  · change ∃ records, t.openRows.mapM PostgresTables.load t = .ok (records, t) ∧ _
    rw [openRows_mirrors h]
    exact loadAll_mirrors h fun r hr => (mem_openInOrder.mp hr).1

/-- The sweep's read finds every open order, and none that it cannot read. -/
theorem scan_mirrors (h : Mirrors owner s t) :
    t.scan.unreadable = [] ∧ ∀ r' ∈ t.scan.records, ∃ r ∈ s.openRows, Same r r' := by
  have hread : ∀ row ∈ t.openRows, ∃ r ∈ s.openRows, ∃ r', t.hydrate row = some r' ∧ Same r r' := by
    intro row hrow
    rw [openRows_mirrors h] at hrow
    obtain ⟨r, hr, rfl⟩ := List.mem_map.mp hrow
    have hopen : r ∈ s.openRows := (List.mem_insertionSort _).mp hr
    exact ⟨r, hopen, hydrate_mirrors h (List.mem_of_mem_filter hopen)⟩
  constructor
  · refine List.map_eq_nil_iff.mpr (List.filter_eq_nil_iff.mpr fun row hrow hnone => ?_)
    obtain ⟨r, -, r', hsome, -⟩ := hread row hrow
    rw [hsome] at hnone
    cases hnone
  · intro r' hr'
    obtain ⟨row, hrow, hsome⟩ := List.mem_filterMap.mp hr'
    obtain ⟨r, hr, q, hq, hsame⟩ := hread row hrow
    cases hsome.symm.trans hq
    exact ⟨r, hr, hsame⟩

/-- A call on one order goes on from the same record, or raises for want of it. -/
theorem held_mirrors {α α' : Type} {R : RecordStore durable → PostgresTables uuid accountId → Prop}
    {Q : α → α' → Prop} (h : Mirrors owner s t) {orderId : String}
    {f : OrderRecord → OrderM (RecordStore durable) α} {g : OrderRecord → OrderM (PostgresTables uuid accountId) α'}
    (hf : ∀ r r', s.find? orderId = some r → Same r r' → Alike R Q (f r s) (g r' t)) :
    Alike R Q (held orderId f s) (held orderId g t) := by
  obtain ⟨hmemory, found, htables, hrel⟩ := get_mirrors h orderId
  unfold held
  rw [Transaction.bind_of_ok hmemory, Transaction.bind_of_ok htables]
  cases hfound : s.find? orderId with
  | none =>
      rw [hfound] at hrel
      cases hrel
      exact alike_throw _ _
  | some r =>
      rw [hfound] at hrel
      cases hrel with
      | some hsame => exact hf _ _ hfound hsame

/-- An edge of the machine is checked alike, and what comes after it alike where it is one. -/
theorem checked_mirrors {α α' : Type} {R : RecordStore durable → PostgresTables uuid accountId → Prop}
    {Q : α → α' → Prop} {x : OrderM (RecordStore durable) α} {y : OrderM (PostgresTables uuid accountId) α'}
    {current target : OrderState} {orderId : String}
    (hx : canTransition current target → Alike R Q (x s) (y t)) :
    Alike R Q ((do check current target orderId; x : OrderM (RecordStore durable) α) s)
      ((do check current target orderId; y : OrderM (PostgresTables uuid accountId) α') t) := by
  unfold check checkTransition
  by_cases hedge : canTransition current target
  · simp only [hedge, if_true]
    exact hx hedge
  · simp only [hedge]
    exact .raised _ _

end Aetheris.OrderMirror
