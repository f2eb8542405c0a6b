import Aetheris.Lib.KeyedRows
import Aetheris.OrderMirror

namespace Aetheris.MirroredWrites

open Lib Money Clock Enums OrderRecords OrderMachine OrderStore OrderTables OrderMirror
open PostgresTables (fillRow discrepancyRow)

variable {durable : Bool} {uuid : String → Option String} {accountId : String} {owner : String → String}

/-! ### Writing the children of a record -/

section Children

open PostgresTables (insertFill)

variable {message orderId : String} {rows : List OrderFillRow} {fill : OrderFill} {added : List OrderFill}

def ownFills (orderId : String) (rows : List OrderFillRow) : List OrderFillRow :=
  rows.filter fun row => row.orderId = orderId

theorem ownFills_append (orderId : String) (rows more : List OrderFillRow) :
    ownFills orderId (rows ++ more) = ownFills orderId rows ++ ownFills orderId more := List.filter_append ..

theorem ownFills_plain (orderId : String) (fills : List OrderFill) :
    ownFills orderId (fills.map (plainFill orderId)) = fills.map (plainFill orderId) := by
  apply List.filter_eq_self.mpr
  intro row hrow
  obtain ⟨fill, -, rfl⟩ := List.mem_map.mp hrow
  exact decide_eq_true rfl

theorem insertFill_new (hfits : FillFits fill) (hid : fill.fillId ∉ (ownFills orderId rows).map OrderFillRow.fillId)
    (htrade : ∀ v ∈ fill.venueTradeId, v ∉ (ownFills orderId rows).filterMap OrderFillRow.venueTradeId) :
    insertFill message orderId rows fill = .ok (rows ++ [plainFill orderId fill]) := by
  have hnewId : ¬ ((ownFills orderId rows).any fun other => other.fillId = fill.fillId) = true := by
    intro hany
    obtain ⟨other, hother, he⟩ := List.any_eq_true.mp hany
    exact hid (List.mem_map.mpr ⟨other, hother, of_decide_eq_true he⟩)
  have hnewTrade : ¬ (fill.venueTradeId.isSome &&
      (ownFills orderId rows).any fun other => other.venueTradeId = fill.venueTradeId) = true := by
    intro hany
    obtain ⟨hsome, hany⟩ := Bool.and_eq_true_iff.mp hany
    obtain ⟨v, hv⟩ := Option.isSome_iff_exists.mp hsome
    obtain ⟨other, hother, he⟩ := List.any_eq_true.mp hany
    exact htrade v hv (List.mem_filterMap.mpr ⟨other, hother, (of_decide_eq_true he).trans hv⟩)
  unfold insertFill
  simp only [fillRow_of_fits hfits]
  rw [← ownFills, if_neg hnewTrade, if_neg hnewId]

/-- New fills, under ids and trade ids that no row of the order has yet, come in one after another. -/
theorem insertFill_all (hfits : ∀ f ∈ added, FillFits f)
    (hids : ((ownFills orderId rows).map OrderFillRow.fillId ++ added.map OrderFill.fillId).Nodup)
    (htrades : ((ownFills orderId rows).filterMap OrderFillRow.venueTradeId ++
      added.filterMap OrderFill.venueTradeId).Nodup) :
    added.foldlM (insertFill message orderId) rows = .ok (rows ++ added.map (plainFill orderId)) := by
  induction added generalizing rows with
  | nil => rw [List.map_nil, List.append_nil]; rfl
  | cons fill rest ih =>
      have hid : fill.fillId ∉ (ownFills orderId rows).map OrderFillRow.fillId := by
        intro hmem
        exact List.disjoint_of_nodup_append hids hmem List.mem_cons_self
      have htrade : ∀ v ∈ fill.venueTradeId, v ∉ (ownFills orderId rows).filterMap OrderFillRow.venueTradeId := by
        intro v hv hmem
        exact List.disjoint_of_nodup_append htrades hmem (List.mem_filterMap.mpr ⟨fill, List.mem_cons_self, hv⟩)
      have hself : ownFills orderId [plainFill orderId fill] = [plainFill orderId fill] :=
        ownFills_plain orderId [fill]
      have hrest : rest.foldlM (insertFill message orderId) (rows ++ [plainFill orderId fill]) =
          .ok (rows ++ [plainFill orderId fill] ++ rest.map (plainFill orderId)) := by
        apply ih
        · exact fun f hf => hfits f (List.mem_cons_of_mem fill hf)
        · rw [ownFills_append, hself]
          simpa [plainFill] using hids
        · rw [ownFills_append, hself]
          cases hv : fill.venueTradeId <;> simpa [plainFill, hv] using htrades
      rw [List.foldlM_cons, insertFill_new (hfits fill List.mem_cons_self) hid htrade]
      change List.foldlM _ (rows ++ [plainFill orderId fill]) rest = _
      rw [hrest, List.append_assoc]
      rfl

theorem map_fillId (orderId : String) (fills : List OrderFill) :
    (fills.map (plainFill orderId)).map OrderFillRow.fillId = fills.map OrderFill.fillId := by
  rw [List.map_map]
  rfl

theorem filterMap_tradeId (orderId : String) (fills : List OrderFill) :
    (fills.map (plainFill orderId)).filterMap OrderFillRow.venueTradeId = fills.filterMap OrderFill.venueTradeId := by
  rw [List.filterMap_map]
  rfl

/-- The fills of a record as it is written, against those that its rows still are. -/
structure Refills (stored written : List OrderFill) : Prop where
  ids : (stored.map OrderFill.fillId).Nodup
  tradeIds : (stored.filterMap OrderFill.venueTradeId).Nodup
  newIds : (written.map OrderFill.fillId).Nodup
  newTradeIds : (written.filterMap OrderFill.venueTradeId).Nodup
  grows : stored ⊆ written ∨ written ⊆ stored
  fits : ∀ f ∈ written, FillFits f

namespace Refills

open KeyedRows

variable {stored written : List OrderFill}

/-- A fill that is stored and written under one id is one fill. -/
theorem same (h : Refills stored written) {f g : OrderFill} (hf : f ∈ stored) (hg : g ∈ written)
    (he : f.fillId = g.fillId) : f = g := by
  rcases h.grows with hsub | hsub
  · exact List.inj_on_of_nodup_map h.newIds (hsub hf) hg he
  · exact List.inj_on_of_nodup_map h.ids hf (hsub hg) he

theorem tradeIds_missing (h : Refills stored written) :
    ((stored ++ missing OrderFill.fillId stored written).filterMap OrderFill.venueTradeId).Nodup := by
  rcases h.grows with hsub | hsub
  · exact ((extended_perm h.newIds h.ids hsub).filterMap _).nodup_iff.mpr h.newTradeIds
  · have hnone : missing OrderFill.fillId stored written = [] := by
      apply List.eq_nil_iff_forall_not_mem.mpr
      intro f hf
      exact (mem_missing.mp hf).2 f (hsub (mem_missing.mp hf).1) rfl
    rw [hnone, List.append_nil]
    exact h.tradeIds

/-- The fills that come in are the ones not stored yet. -/
theorem filter_eq_missing (hrows : (ownFills orderId rows).Perm (stored.map (plainFill orderId))) :
    written.filter (fun fill => fill.fillId ∉ (ownFills orderId rows).map OrderFillRow.fillId) =
      missing OrderFill.fillId stored written := by
  refine List.filter_congr fun fill _ => ?_
  have hids := (hrows.map OrderFillRow.fillId).mem_iff (a := fill.fillId)
  rw [map_fillId] at hids
  exact decide_eq_decide.mpr (not_congr hids)

theorem insert_ok (h : Refills stored written) (message : String)
    (hrows : (ownFills orderId rows).Perm (stored.map (plainFill orderId))) :
    (missing OrderFill.fillId stored written).foldlM (insertFill message orderId) rows =
      .ok (rows ++ (missing OrderFill.fillId stored written).map (plainFill orderId)) := by
  apply insertFill_all
  · intro f hf
    exact h.fits f (mem_missing.mp hf).1
  · have hids := hrows.map OrderFillRow.fillId
    rw [map_fillId] at hids
    refine (hids.append_right _).nodup_iff.mpr ?_
    rw [← List.map_append]
    exact nodup_missing h.ids h.newIds
  · have htrades := hrows.filterMap OrderFillRow.venueTradeId
    rw [filterMap_tradeId] at htrades
    refine (htrades.append_right _).nodup_iff.mpr ?_
    rw [← List.filterMap_append]
    exact h.tradeIds_missing

/-- What the rows of the order come to: a row for each fill of the record. -/
theorem ownFills_refilled (h : Refills stored written)
    (hrows : (ownFills orderId rows).Perm (stored.map (plainFill orderId))) :
    (ownFills orderId ((rows ++ (missing OrderFill.fillId stored written).map (plainFill orderId)).filter
      fun row => row.orderId ≠ orderId ∨ row.fillId ∈ written.map OrderFill.fillId)).Perm
        (written.map (plainFill orderId)) := by
  have hswap : ∀ more : List OrderFillRow,
      ownFills orderId (more.filter fun row => row.orderId ≠ orderId ∨ row.fillId ∈ written.map OrderFill.fillId) =
        (ownFills orderId more).filter fun row => row.fillId ∈ written.map OrderFill.fillId := by
    intro more
    rw [ownFills, ownFills, List.filter_filter, List.filter_filter]
    refine List.filter_congr fun row _ => ?_
    by_cases hown : row.orderId = orderId <;> simp [hown]
  rw [hswap, ownFills_append, ownFills_plain]
  have hall := hrows.append_right ((missing OrderFill.fillId stored written).map (plainFill orderId))
  rw [← List.map_append] at hall
  refine (hall.filter _).trans ?_
  rw [List.filter_map]
  exact (refreshed_perm h.ids h.newIds fun f hf g hg => h.same hf hg).map _

end Refills

/-- The rows of the other orders stay as they were. -/
theorem ownFills_others {other : String} (hother : other ≠ orderId) (ids : List String) :
    ownFills other ((rows ++ added.map (plainFill orderId)).filter
      fun row => row.orderId ≠ orderId ∨ row.fillId ∈ ids) = ownFills other rows := by
  have hnone : ownFills other (added.map (plainFill orderId)) = [] := by
    apply List.filter_eq_nil_iff.mpr
    intro row hrow
    obtain ⟨fill, -, rfl⟩ := List.mem_map.mp hrow
    exact fun he => hother (of_decide_eq_true he).symm
  have hkept : ∀ more : List OrderFillRow,
      ownFills other (more.filter fun row => row.orderId ≠ orderId ∨ row.fillId ∈ ids) = ownFills other more := by
    intro more
    rw [ownFills, ownFills, List.filter_filter]
    refine List.filter_congr fun row _ => ?_
    by_cases hown : row.orderId = other <;> simp [hown, hother]
  rw [hkept, ownFills_append, hnone, List.append_nil]

def ownDiscrepancies (orderId : String) (rows : List OrderDiscrepancyRow) : List OrderDiscrepancyRow :=
  rows.filter fun row => row.orderId = orderId

theorem ownDiscrepancies_append (orderId other : String) (rows : List OrderDiscrepancyRow)
    (more : List OrderDiscrepancy) : ownDiscrepancies other (rows ++ more.map (discrepancyRow orderId)) =
      ownDiscrepancies other rows ++ if other = orderId then more.map (discrepancyRow orderId) else [] := by
  rw [ownDiscrepancies, ownDiscrepancies, List.filter_append]
  congr 1
  split
  · rename_i he
    apply List.filter_eq_self.mpr
    intro row hrow
    obtain ⟨discrepancy, -, rfl⟩ := List.mem_map.mp hrow
    exact decide_eq_true he.symm
  · rename_i he
    apply List.filter_eq_nil_iff.mpr
    intro row hrow
    obtain ⟨discrepancy, -, rfl⟩ := List.mem_map.mp hrow
    exact fun hown => he (of_decide_eq_true hown).symm

/-- The discrepancies of a record as it is written, against those that its rows still are. -/
structure Renotes (stored written : List OrderDiscrepancy) : Prop where
  keys : (stored.map noteKey).Nodup
  newKeys : (written.map noteKey).Nodup
  grows : stored ⊆ written

theorem Renotes.unseen_eq {stored written : List OrderDiscrepancy} {rows : List OrderDiscrepancyRow}
    (hrows : (ownDiscrepancies orderId rows).Perm (stored.map (discrepancyRow orderId))) :
    written.filter (fun d => (d.observedAt, d.detail) ∉ (ownDiscrepancies orderId rows).map
      fun row => (row.observedAt, row.detail)) = KeyedRows.missing noteKey stored written := by
  refine List.filter_congr fun d _ => ?_
  have hkeys := (hrows.map fun row => (row.observedAt, row.detail)).mem_iff (a := noteKey d)
  rw [List.map_map] at hkeys
  exact decide_eq_decide.mpr (not_congr hkeys)

theorem Renotes.perm {stored written : List OrderDiscrepancy} {rows : List OrderDiscrepancyRow}
    (h : Renotes stored written)
    (hrows : (ownDiscrepancies orderId rows).Perm (stored.map (discrepancyRow orderId))) :
    (ownDiscrepancies orderId (rows ++ (KeyedRows.missing noteKey stored written).map (discrepancyRow orderId))).Perm
      (written.map (discrepancyRow orderId)) := by
  rw [ownDiscrepancies_append, if_pos rfl]
  have hall := hrows.append_right ((KeyedRows.missing noteKey stored written).map (discrepancyRow orderId))
  rw [← List.map_append] at hall
  exact hall.trans ((KeyedRows.extended_perm h.newKeys h.keys h.grows).map _)

/-- What is left of the tables, but for the rows of one order's children. -/
structure Rewritten (orderId : String) (fills : List OrderFill) (discrepancies : List OrderDiscrepancy)
    (t t' : PostgresTables uuid accountId) : Prop where
  orders : t'.orders = t.orders
  fills : (t'.fillsOf orderId).Perm (fills.map (plainFill orderId))
  discrepancies : (t'.discrepanciesOf orderId).Perm (discrepancies.map (discrepancyRow orderId))
  others : ∀ other, other ≠ orderId →
    t'.fillsOf other = t.fillsOf other ∧ t'.discrepanciesOf other = t.discrepanciesOf other
  fillOrders : ∀ row ∈ t'.fills, row.orderId = orderId ∨ row ∈ t.fills
  discrepancyOrders : ∀ row ∈ t'.discrepancies, row.orderId = orderId ∨ row ∈ t.discrepancies

theorem writeChildren_rewritten (record : OrderRecord) {stored : List OrderFill} {noted : List OrderDiscrepancy}
    {t : PostgresTables uuid accountId} (hfills : Refills stored record.fills)
    (hdiscrepancies : Renotes noted record.discrepancies)
    (hstored : (t.fillsOf record.orderId).Perm (stored.map (plainFill record.orderId)))
    (hnoted : (t.discrepanciesOf record.orderId).Perm (noted.map (discrepancyRow record.orderId))) (message : String) :
    ∃ t', PostgresTables.writeChildren message record t = .ok ((), t') ∧
      Rewritten record.orderId record.fills record.discrepancies t t' := by
  let t' : PostgresTables uuid accountId :=
    { t with
      fills := (t.fills ++ (KeyedRows.missing OrderFill.fillId stored record.fills).map
        (plainFill record.orderId)).filter
          fun row => row.orderId ≠ record.orderId ∨ row.fillId ∈ record.fills.map OrderFill.fillId
      discrepancies := t.discrepancies ++
        (KeyedRows.missing noteKey noted record.discrepancies).map (discrepancyRow record.orderId) }
  have hadded : record.fills.filter (fun fill => fill.fillId ∉ (t.fillsOf record.orderId).map OrderFillRow.fillId) =
      KeyedRows.missing OrderFill.fillId stored record.fills := Refills.filter_eq_missing hstored
  have hunseen : record.discrepancies.filter (fun d => (d.observedAt, d.detail) ∉
      (t.discrepanciesOf record.orderId).map fun row => (row.observedAt, row.detail)) =
        KeyedRows.missing noteKey noted record.discrepancies := Renotes.unseen_eq hnoted
  refine ⟨t', ?_, ?_⟩
  · simp only [PostgresTables.writeChildren, hadded, hunseen, hfills.insert_ok message hstored]
    rfl
  · constructor
    case orders => rfl
    case fills => exact hfills.ownFills_refilled hstored
    case discrepancies => exact hdiscrepancies.perm hnoted
    case others =>
      intro other hother
      refine ⟨ownFills_others hother _, ?_⟩
      have hnone := ownDiscrepancies_append record.orderId other t.discrepancies
        (KeyedRows.missing noteKey noted record.discrepancies)
      rw [if_neg hother, List.append_nil] at hnone
      exact hnone
    case fillOrders =>
      intro row hrow
      rcases List.mem_append.mp (List.mem_filter.mp hrow).1 with hold | hnew
      · exact .inr hold
      · obtain ⟨fill, -, rfl⟩ := List.mem_map.mp hnew
        exact .inl rfl
    case discrepancyOrders =>
      intro row hrow
      rcases List.mem_append.mp hrow with hold | hnew
      · exact .inr hold
      · obtain ⟨discrepancy, -, rfl⟩ := List.mem_map.mp hnew
        exact .inl rfl

end Children

variable {s : RecordStore durable} {t : PostgresTables uuid accountId} {r w w' : OrderRecord}

/-! ### Writing a record -/

section Writes

open PostgresTables (conflict requireOwnAccount setRow insertRow updateFailure storeFailure)

theorem conflict_none {others : List OrderRow} (hclient : ∀ row ∈ others, row.clientOrderId ≠ w.clientOrderId)
    (hid : ∀ row ∈ others, row.orderId ≠ w.orderId)
    (hvenue : ∀ row ∈ others, ∀ v ∈ w.venueOrderId, row.venueOrderId ≠ some v) : conflict w others = none := by
  have hclients : ¬ (others.any fun row => row.clientOrderId = w.clientOrderId) = true := by
    simpa using hclient
  have hids : ¬ (others.any fun row => row.orderId = w.orderId) = true := by
    simpa using hid
  have hvenues : ¬ (w.venueOrderId.isSome && others.any fun row => row.venueOrderId = w.venueOrderId) = true := by
    intro hany
    obtain ⟨hsome, hany⟩ := Bool.and_eq_true_iff.mp hany
    obtain ⟨v, hv⟩ := Option.isSome_iff_exists.mp hsome
    obtain ⟨row, hrow, he⟩ := List.any_eq_true.mp hany
    exact hvenue row hrow v hv ((of_decide_eq_true he).trans hv)
  unfold conflict
  simp only
  rw [if_neg hclients, if_neg hids, if_neg hvenues]

/-- No other order has the venue order id of a record. -/
theorem venue_of_others (h : Mirrors owner s t) (hw : Sound accountId owner w) {q : OrderRecord} (hq : q ∈ s.rows)
    (hother : q.orderId ≠ w.orderId) : ∀ v ∈ w.venueOrderId, q.venueOrderId ≠ some v := by
  intro v hv hqv
  exact hother (((h.sound q hq).venue v hqv).symm.trans (hw.venue v hv))

theorem venueIdTaken_of_sound (h : Mirrors owner s t) (hw : Sound accountId owner w) : s.venueIdTaken w = false := by
  have hnone : (s.rows.any fun q => q.orderId ≠ w.orderId && q.venueOrderId = w.venueOrderId) = true →
      w.venueOrderId.isSome = false := by
    intro hany
    obtain ⟨q, hq, he⟩ := List.any_eq_true.mp hany
    obtain ⟨hother, hvenue⟩ := Bool.and_eq_true_iff.mp he
    rw [Option.isSome_eq_false_iff, Option.isNone_iff_eq_none, Option.eq_none_iff_forall_not_mem]
    intro v hv
    exact venue_of_others h hw hq (of_decide_eq_true hother) v hv ((of_decide_eq_true hvenue).trans hv)
  unfold RecordStore.venueIdTaken
  cases hany : s.rows.any fun q => q.orderId ≠ w.orderId && q.venueOrderId = w.venueOrderId with
  | false => rw [Bool.and_false]
  | true => rw [hnone hany, Bool.and_false, Bool.false_and, Bool.false_and]

theorem requireOwnAccount_ok (hcanonical : uuid accountId = some accountId) (haccount : w.intent.accountId = accountId)
    (t : PostgresTables uuid accountId) : requireOwnAccount w t = .ok ((), t) := by
  unfold requireOwnAccount
  simp only [haccount, hcanonical, ne_eq, not_true_eq_false, if_false]
  rfl

theorem requireOwnAccount_cases (w : OrderRecord) (t : PostgresTables uuid accountId) :
    (∃ e, requireOwnAccount w t = .error e) ∨ requireOwnAccount w t = .ok ((), t) := by
  unfold requireOwnAccount
  cases uuid w.intent.accountId with
  | none => exact .inl ⟨_, rfl⟩
  | some declared =>
      by_cases hforeign : declared ≠ accountId
      · simp only [if_pos hforeign]
        exact .inl ⟨_, rfl⟩
      · simp only [if_neg hforeign]
        exact .inr rfl

/-- A record put over the one before it, or beside the others, and its children written. -/
theorem mirrors_put (h : Mirrors owner s t) (hw : Sound accountId owner w) (hsame : Same w w')
    (hclient : ∀ q ∈ s.rows, q.orderId ≠ w.orderId → q.clientOrderId ≠ w.clientOrderId)
    {t₁ t' : PostgresTables uuid accountId} (hwritten : Rewritten w.orderId w'.fills w'.discrepancies t₁ t')
    (horders : t₁.orders = (s.put w).rows.map plainRow) (hfills : t₁.fills = t.fills)
    (hdiscrepancies : t₁.discrepancies = t.discrepancies) : Mirrors owner (s.put w) t' := by
  have hkept : ∀ q ∈ s.rows, q.orderId ∈ (s.put w).rows.map OrderRecord.orderId := fun q hq =>
    (mem_keys_upsert OrderRecord.orderId w s.rows q.orderId).mpr (.inr (List.mem_map_of_mem hq))
  have hself : w.orderId ∈ (s.put w).rows.map OrderRecord.orderId :=
    (mem_keys_upsert OrderRecord.orderId w s.rows w.orderId).mpr (.inl rfl)
  constructor
  case orders => rw [hwritten.orders, horders]
  case fills =>
    intro q hq
    rcases (RecordStore.mem_put s w q).mp hq with rfl | ⟨hq, hother⟩
    · exact hwritten.fills.trans (hsame.fills.map _)
    · rw [(hwritten.others q.orderId hother).1, PostgresTables.fillsOf, hfills]
      exact h.fills q hq
  case discrepancies =>
    intro q hq
    rcases (RecordStore.mem_put s w q).mp hq with rfl | ⟨hq, hother⟩
    · exact hwritten.discrepancies.trans (hsame.discrepancies.map _)
    · rw [(hwritten.others q.orderId hother).2, PostgresTables.discrepanciesOf, hdiscrepancies]
      exact h.discrepancies q hq
  case fillOrders =>
    intro row hrow
    rcases hwritten.fillOrders row hrow with he | hold
    · rw [he]
      exact hself
    · rw [hfills] at hold
      obtain ⟨q, hq, he⟩ := List.mem_map.mp (h.fillOrders row hold)
      rw [← he]
      exact hkept q hq
  case discrepancyOrders =>
    intro row hrow
    rcases hwritten.discrepancyOrders row hrow with he | hold
    · rw [he]
      exact hself
    · rw [hdiscrepancies] at hold
      obtain ⟨q, hq, he⟩ := List.mem_map.mp (h.discrepancyOrders row hold)
      rw [← he]
      exact hkept q hq
  case sound =>
    intro q hq
    rcases (RecordStore.mem_put s w q).mp hq with rfl | ⟨hq, -⟩
    · exact hw
    · exact h.sound q hq
  case clientIds =>
    refine (s.put w).table.nodup.of_map.map_on ?_
    intro a ha b hb he
    rcases (RecordStore.mem_put s w a).mp ha with haw | ⟨hold, hother⟩
    · rcases (RecordStore.mem_put s w b).mp hb with hbw | ⟨hold, hother⟩
      · rw [haw, hbw]
      · exact absurd (he.symm.trans (by rw [haw])) (hclient b hold hother)
    · rcases (RecordStore.mem_put s w b).mp hb with hbw | ⟨hold', -⟩
      · exact absurd (he.trans (by rw [hbw])) (hclient a hold hother)
      · exact List.inj_on_of_nodup_map h.clientIds hold hold' he

theorem notMem_of_filter {row : OrderRow} {orderId : String}
    (h : row ∈ t.orders.filter fun row => row.orderId ≠ orderId) (hmirrors : Mirrors owner s t) :
    ∃ q ∈ s.rows, q.orderId ≠ orderId ∧ row = plainRow q := by
  obtain ⟨hrow, hother⟩ := List.mem_filter.mp h
  rw [hmirrors.orders] at hrow
  obtain ⟨q, hq, rfl⟩ := List.mem_map.mp hrow
  exact ⟨q, hq, of_decide_eq_true hother, rfl⟩

/-- The row of a record takes the place of the row before it. -/
theorem setRow_mirrors (h : Mirrors owner s t) (hr : s.find? w.orderId = some r) (hw : Sound accountId owner w)
    (hsame : Same w w') (hclient : ∀ q ∈ s.rows, q.orderId ≠ w.orderId → q.clientOrderId ≠ w.clientOrderId)
    (message : String) :
    setRow message w' t = .ok ((), { t with orders := (s.put w).rows.map plainRow }) := by
  have hnone : conflict w' (t.orders.filter fun row => row.orderId ≠ w'.orderId) = none := by
    rw [hsame.orderId]
    apply conflict_none
    all_goals
      intro row hrow
      obtain ⟨q, hq, hother, rfl⟩ := notMem_of_filter hrow h
    · rw [hsame.clientOrderId]
      exact hclient q hq hother
    · rw [hsame.orderId]
      exact hother
    · rw [hsame.venueOrderId]
      exact venue_of_others h hw hq hother
  have hrows : (s.put w).rows = s.rows.map fun q => if q.orderId = w.orderId then w else q :=
    upsert_of_mem s.table.nodup (List.mem_map.mpr ⟨r, RecordStore.mem_of_find? hr, RecordStore.orderId_of_find? hr⟩)
  have horders : (t.orders.map fun old => if old.orderId = w'.orderId then plainRow w' else old) =
      (s.put w).rows.map plainRow := by
    rw [h.orders, hrows, List.map_map, List.map_map, hsame.plainRow_eq, hsame.orderId]
    refine List.map_congr_left fun q _ => ?_
    rw [Function.comp_apply, Function.comp_apply, apply_ite plainRow]
    rfl
  unfold setRow
  simp only [columns_of_sound (hw.same hsame), hnone, horders]

theorem insertRow_mirrors (h : Mirrors owner s t) (hnew : ∀ q ∈ s.rows, q.orderId ≠ w.orderId)
    (hw : Sound accountId owner w) (hclient : ∀ q ∈ s.rows, q.clientOrderId ≠ w.clientOrderId) (message : String) :
    insertRow message w t = .ok ((), { t with orders := (s.put w).rows.map plainRow }) := by
  have hnone : conflict w t.orders = none := by
    rw [h.orders]
    apply conflict_none
    all_goals
      intro row hrow
      obtain ⟨q, hq, rfl⟩ := List.mem_map.mp hrow
    · exact hclient q hq
    · exact hnew q hq
    · exact venue_of_others h hw hq (hnew q hq)
  have horders : t.orders ++ [plainRow w] = (s.put w).rows.map plainRow := by
    have hrows : (s.put w).rows = s.rows ++ [w] := upsert_of_new hnew
    rw [hrows, List.map_append, h.orders]
    rfl
  unfold insertRow
  simp only [columns_of_sound hw, hnone, horders]

/-- A record as a write leaves it: still the same order, with fills that came or went and discrepancies that came. -/
structure Revises (r w : OrderRecord) : Prop where
  orderId : w.orderId = r.orderId
  clientOrderId : w.clientOrderId = r.clientOrderId
  fills : r.fills ⊆ w.fills ∨ w.fills ⊆ r.fills
  discrepancies : r.discrepancies ⊆ w.discrepancies

theorem Revises.same (h : Revises r w) (hsame : Same w w') : Revises r w' := by
  constructor
  case orderId => rw [hsame.orderId, h.orderId]
  case clientOrderId => rw [hsame.clientOrderId, h.clientOrderId]
  case fills => exact h.fills.imp (List.Subset.trans · hsame.fills.symm.subset) (List.Subset.trans hsame.fills.subset)
  case discrepancies => exact List.Subset.trans h.discrepancies hsame.discrepancies.symm.subset

theorem refills_of_sound (hr : Sound accountId owner r) (hw : Sound accountId owner w) (h : Revises r w) :
    Refills r.fills w.fills := by
  constructor
  case ids => exact hr.fillIds
  case tradeIds => exact hr.tradeIds
  case newIds => exact hw.fillIds
  case newTradeIds => exact hw.tradeIds
  case grows => exact h.fills
  case fits => exact hw.fills

/-- Over the tables an update goes the way it goes over the records. -/
theorem update_mirrors (hcanonical : uuid accountId = some accountId) (h : Mirrors owner s t)
    (hr : s.find? r.orderId = some r) (hrevises : Revises r w) (hw : Sound accountId owner w) (hsame : Same w w') :
    ∃ t', OrderRepository.update w s = .ok (w, s.put w) ∧ OrderRepository.update w' t = .ok (w', t') ∧
      Mirrors owner (s.put w) t' := by
  have hrows := RecordStore.mem_of_find? hr
  have hw' := hw.same hsame
  have hrevises' := hrevises.same hsame
  have hfind : s.find? w.orderId = some r := by rw [hrevises.orderId, hr]
  have hclient : ∀ q ∈ s.rows, q.orderId ≠ w.orderId → q.clientOrderId ≠ w.clientOrderId := by
    intro q hq hother he
    rw [hrevises.clientOrderId] at he
    rw [hrevises.orderId] at hother
    exact hother (congrArg OrderRecord.orderId (List.inj_on_of_nodup_map h.clientIds hq hrows he))
  have hrow : (t.row? w'.orderId).isNone = false := by
    rw [row?_mirrors h, hsame.orderId, hfind]
    rfl
  have hset := setRow_mirrors h hfind hw hsame hclient updateFailure
  obtain ⟨t', hchildren, hwritten⟩ := writeChildren_rewritten w'
    (t := { t with orders := (s.put w).rows.map plainRow }) (refills_of_sound (h.sound r hrows) hw' hrevises')
    ⟨(h.sound r hrows).notes, hw'.notes, hrevises'.discrepancies⟩
    (by rw [hrevises'.orderId]; exact h.fills r hrows) (by rw [hrevises'.orderId]; exact h.discrepancies r hrows)
    updateFailure
  rw [hsame.orderId] at hwritten
  refine ⟨t', ?_, ?_, mirrors_put h hw hsame hclient hwritten rfl rfl rfl⟩
  · exact RecordStore.update_ok.mpr ⟨by rw [hfind]; rfl, venueIdTaken_of_sound h hw, rfl⟩
  · have hfound : PostgresTables.requireRow w'.orderId t = .ok ((), t) := by
      rw [PostgresTables.requireRow, hrow]
      rfl
    change PostgresTables.update w' t = _
    unfold PostgresTables.update
    rw [Transaction.bind_of_ok (requireOwnAccount_ok hcanonical hw'.account t), Transaction.bind_of_ok hfound,
      Transaction.bind_of_ok hset, Transaction.bind_of_ok hchildren]
    rfl

/-- A new record with no children comes into both. -/
theorem add_mirrors (hcanonical : uuid accountId = some accountId) (h : Mirrors owner s t)
    (hnew : ∀ q ∈ s.rows, q.orderId ≠ w.orderId) (hclient : ∀ q ∈ s.rows, q.clientOrderId ≠ w.clientOrderId)
    (hw : Sound accountId owner w) :
    ∃ t', OrderRepository.add w s = .ok (w, s.put w) ∧ OrderRepository.add w t = .ok (w, t') ∧
      Mirrors owner (s.put w) t' := by
  have hnobody : ∀ orderId, orderId ∈ s.rows.map OrderRecord.orderId → orderId ≠ w.orderId := by
    rintro orderId hmem rfl
    obtain ⟨q, hq, he⟩ := List.mem_map.mp hmem
    exact hnew q hq he
  have hnofills : t.fillsOf w.orderId = [] :=
    List.filter_eq_nil_iff.mpr fun row hrow he => hnobody _ (h.fillOrders row hrow) (of_decide_eq_true he)
  have hnonotes : t.discrepanciesOf w.orderId = [] :=
    List.filter_eq_nil_iff.mpr fun row hrow he => hnobody _ (h.discrepancyOrders row hrow) (of_decide_eq_true he)
  have hinsert := insertRow_mirrors h hnew hw hclient storeFailure
  have hrefills : Refills [] w.fills := ⟨.nil, .nil, hw.fillIds, hw.tradeIds, .inl (List.nil_subset _), hw.fills⟩
  have hrenotes : Renotes [] w.discrepancies := ⟨.nil, hw.notes, List.nil_subset _⟩
  obtain ⟨t', hchildren, hwritten⟩ := writeChildren_rewritten w
    (t := { t with orders := (s.put w).rows.map plainRow }) hrefills hrenotes (.of_eq hnofills) (.of_eq hnonotes) storeFailure
  refine ⟨t', ?_, ?_, mirrors_put h hw (.refl w) (fun q hq _ => hclient q hq) hwritten rfl rfl rfl⟩
  · refine RecordStore.add_ok.mpr ⟨?_, fun _ => ?_, venueIdTaken_of_sound h hw, rfl⟩
    · exact List.find?_eq_none.mpr fun q hq he => hclient q hq (of_decide_eq_true he)
    · exact List.find?_eq_none.mpr fun q hq he => hnew q hq (of_decide_eq_true he)
  · change PostgresTables.add w t = _
    unfold PostgresTables.add
    rw [Transaction.bind_of_ok (requireOwnAccount_ok hcanonical hw.account t), Transaction.bind_of_ok hinsert,
      Transaction.bind_of_ok hchildren]
    rfl

end Writes

end Aetheris.MirroredWrites
