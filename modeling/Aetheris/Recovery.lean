import Aetheris.OrderWrites

namespace Aetheris.Recovery

open Lib Clock Enums OrderRecords OrderMachine OrderStore OrderEngine OrderCalls OrderWrites RecordStore

/-- An order that was sent is past its validation. -/
def Underway (r : OrderRecord) : Prop := r.reachedVenue → r.state ≠ .created ∧ r.state ≠ .validating

theorem Underway.of_eq {r r' : OrderRecord} (h : Underway r) (hv : r'.reachedVenue = r.reachedVenue)
    (hs : r'.state = r.state) : Underway r' := by
  intro hr
  rw [hs]
  exact h (hv ▸ hr)

theorem Underway.move {r r' : OrderRecord} (h : Underway r) (hv : r'.reachedVenue = r.reachedVenue)
    (hc : canTransition r.state r'.state) : Underway r' := by
  intro hr
  constructor
  · intro he
    rw [he, not_canTransition_created] at hc
    cases hc
  · intro he
    rw [he, canTransition_validating_iff] at hc
    exact (h (hv ▸ hr)).1 hc

theorem applies_underway {decision : ReconciliationDecision} {now : Timestamp} {r r' : OrderRecord}
    (h : Applies decision now r r') (hr : Underway r) : Underway r' := by
  cases h with
  | disputed | unanswered | repeated => exact hr.of_eq rfl rfl
  | moved target _ _ _ _ hc => exact hr.move rfl hc

theorem write_underway {op : Operation} {r r' : OrderRecord} (h : Write op r r') (hr : Underway r) :
    Underway r' := by
  cases h with
  | validating hc | riskRejected hc | cancelled _ hc | acknowledged hc | unknown hc | filled _ hc
  | attempted hc | resolved _ hc | interrupted _ hc => exact hr.move rfl hc
  | submitting => exact fun _ => ⟨by simp [withMove], by simp [withMove]⟩
  | overfilled | damaged => exact hr.of_eq rfl rfl
  | reconciled happly | applied happly => exact applies_underway happly hr
  | reopened hs => exact hr.move rfl (by rw [hs]; rfl)

variable {durable : Bool}

theorem attempt_underway [OrderIdentity.Runtime] (op : Operation) {s : RecordStore durable}
    (hs : ∀ orderId r, s.find? orderId = some r → Underway r) :
    ∀ orderId r, (Transaction.attempt perform s op).find? orderId = some r → Underway r := by
  rcases Transaction.attempt_cases perform s op with ⟨t, ht, he⟩ | he
  · rw [he]
    have hput : ∀ {s : RecordStore durable} {b : OrderRecord},
        (∀ orderId r, s.find? orderId = some r → Underway r) → Underway b →
        ∀ orderId r, (s.put b).find? orderId = some r → Underway r := by
      intro s b hs hb orderId r hr
      rw [find?_put] at hr
      split at hr
      · cases hr
        exact hb
      · exact hs orderId r hr
    refine (perform_writes ht).preserves (J := fun s => ∀ orderId r, s.find? orderId = some r → Underway r) ?_ ?_ hs
    · exact fun _ _ _ hs _ _ _ => hput hs fun hr => nomatch hr
    · exact fun _ r _ hs hr hw => hput hs (write_underway hw (hs r.orderId r hr))
  · rw [he]
    exact hs

def interrupted (now : Timestamp) (r : OrderRecord) : OrderRecord :=
  if r.isUnreconciled || !r.reachedVenue then r else withUnknown r interruptedReason now

/-- What recovery makes of a stored row. -/
def recovered (now : Timestamp) (r : OrderRecord) : OrderRecord :=
  if r.isTerminal then r
  else if readable true r then interrupted now r
  else withUnreadable r (damagedDetail (unreadableOrder r)) now

theorem canTransition_unknown_of_underway {r : OrderRecord} (h : Underway r) (hopen : r.isTerminal = false)
    (hsettled : r.isUnreconciled = false) (hsent : r.reachedVenue) : canTransition r.state .unknown := by
  obtain ⟨hcreated, hvalidating⟩ := h hsent
  rw [OrderRecord.isTerminal] at hopen
  rw [OrderRecord.isUnreconciled] at hsettled
  cases hstate : r.state <;> simp_all [OrderState.isTerminal] <;> decide

theorem recoverRecords_cons {now : Timestamp} {r : OrderRecord} {s : RecordStore durable}
    (rest : List OrderRecord) (report : RecoveryReport) (hs : Loads s r.orderId r) (hopen : r.isTerminal = false)
    (hunder : Underway r) :
    ∃ report' t, recoverRecords now (r :: rest) report s = recoverRecords now rest report' t ∧
      Turn find? OrderRecord.orderId (fun r r' => r' = interrupted now r) r s t := by
  rw [recoverRecords]
  cases hsettled : r.isUnreconciled with
  | true =>
      have hkept : interrupted now r = r := by simp [interrupted, hsettled]
      rw [if_pos rfl]
      exact ⟨_, s, rfl, .keep r hs.1 hkept.symm⟩
  | false =>
      rw [if_neg (by decide)]
      cases hsent : r.reachedVenue with
      | false =>
          have hkept : interrupted now r = r := by simp [interrupted, hsent]
          rw [if_pos (by decide)]
          exact ⟨_, s, rfl, .keep r hs.1 hkept.symm⟩
      | true =>
          have hmoved : interrupted now r = withUnknown r interruptedReason now := by
            simp [interrupted, hsettled, hsent]
          have hc := canTransition_unknown_of_underway hunder hopen hsettled hsent
          have hput := (puts_iff_of_eq hs (withUnknown r interruptedReason now) rfl rfl).mpr rfl
          have hmark := markUnknown_ok.mpr ⟨r, hs, hc, hput⟩
          rw [if_neg (by decide), Transaction.bind_of_ok hmark]
          exact ⟨_, _, rfl, turn_put s r (withUnknown r interruptedReason now) rfl hmoved.symm⟩

theorem recoverRecords_interrupts (now : Timestamp) {rs : List OrderRecord} (report : RecoveryReport)
    {s : RecordStore durable} (hs : ∀ r ∈ rs, Loads s r.orderId r) (hn : (rs.map OrderRecord.orderId).Nodup)
    (hopen : ∀ r ∈ rs, r.isTerminal = false) (hunder : ∀ r ∈ rs, Underway r) :
    ∃ report' t, recoverRecords now rs report s = .ok (report', t) ∧
      Pass find? OrderRecord.orderId (fun r r' => r' = interrupted now r) rs s t := by
  have hpass : ∃ report' t, (recoverRecords now rs report s = recoverRecords now [] report' t ∧
      ∀ r ∈ [], readable durable r ∧ r.isTerminal = false ∧ Underway r) ∧
      Pass find? OrderRecord.orderId (fun r r' => r' = interrupted now r) rs s t := by
    apply pass_of_turns (fun rest report' t => recoverRecords now rs report s = recoverRecords now rest report' t ∧
      ∀ r ∈ rest, readable durable r ∧ r.isTerminal = false ∧ Underway r)
    · rintro r rest report₁ s₁ ⟨hloop, hrest⟩ _ hr
      obtain ⟨hreadable, hopen, hunder⟩ := hrest r (List.mem_cons_self ..)
      obtain ⟨report₂, s₂, hstep, hturn⟩ := recoverRecords_cons rest report₁ ⟨hr, hreadable⟩ hopen hunder
      exact ⟨report₂, s₂, ⟨hloop.trans hstep, fun q hq => hrest q (List.mem_cons_of_mem r hq)⟩, hturn⟩
    · exact ⟨rfl, fun r hr => ⟨(hs r hr).2, hopen r hr, hunder r hr⟩⟩
    · exact hn
    · exact fun r hr => (hs r hr).1
  obtain ⟨report', t, ⟨hloop, _⟩, hpass⟩ := hpass
  exact ⟨report', t, hloop, hpass⟩

theorem recoverUnreadable_notes (now : Timestamp) (rs : List OrderRecord) {s : RecordStore true}
    (hs : ∀ r ∈ rs, s.find? r.orderId = some r) (hn : (rs.map OrderRecord.orderId).Nodup) :
    ∃ t, recoverUnreadable now (rs.map unreadableOrder) s = .ok ((), t) ∧
      Pass find? OrderRecord.orderId
        (fun r r' => r' = withUnreadable r (damagedDetail (unreadableOrder r)) now) rs s t := by
  have hpass : ∃ (_ : Unit) (t : RecordStore true), recoverUnreadable now (rs.map unreadableOrder) s =
        recoverUnreadable now ([].map unreadableOrder) t ∧
      Pass find? OrderRecord.orderId
        (fun r r' => r' = withUnreadable r (damagedDetail (unreadableOrder r)) now) rs s t := by
    refine pass_of_turns (fun rest _ t => recoverUnreadable now (rs.map unreadableOrder) s =
      recoverUnreadable now (rest.map unreadableOrder) t) ?_ (a := ()) rfl hn hs
    intro r rest _ s₁ hloop _ hr
    have hnoted : OrderRepository.recordUnreadable (unreadableOrder r).orderId
        (damagedDetail (unreadableOrder r)) now s₁ =
        .ok ((), s₁.put (withUnreadable r (damagedDetail (unreadableOrder r)) now)) :=
      recordUnreadable_ok.mpr ⟨rfl, r, hr, rfl⟩
    refine ⟨(), _, hloop.trans ?_,
      turn_put s₁ r (withUnreadable r (damagedDetail (unreadableOrder r)) now) rfl rfl⟩
    rw [List.map_cons, recoverUnreadable, Transaction.bind_of_ok hnoted]
  obtain ⟨_, t, hloop, hpass⟩ := hpass
  exact ⟨t, hloop, hpass⟩

def damaged (s : RecordStore durable) : List OrderRecord := s.openRows.filter (fun r => !readable durable r)

theorem mem_damaged {s : RecordStore durable} {r : OrderRecord} :
    r ∈ damaged s ↔ r ∈ s.rows ∧ r.isTerminal = false ∧ readable durable r = false := by
  simp only [damaged, openRows, List.mem_filter, Bool.not_eq_true', and_assoc]

theorem nodup_damaged (s : RecordStore durable) : ((damaged s).map OrderRecord.orderId).Nodup := by
  have hsub : (damaged s).Sublist s.rows := List.filter_sublist.trans List.filter_sublist
  exact (hsub.map OrderRecord.orderId).nodup s.table.nodup

theorem not_mem_map_orderId {s : RecordStore durable} {rs : List OrderRecord} (hrs : ∀ q ∈ rs, q ∈ s.rows)
    {r : OrderRecord} (hr : s.find? r.orderId = some r) (hn : r ∉ rs) : r.orderId ∉ rs.map OrderRecord.orderId := by
  intro hin
  obtain ⟨q, hq, he⟩ := List.mem_map.mp hin
  have hfind := mem_rows_iff.mp (hrs q hq)
  rw [he, hr] at hfind
  cases hfind
  exact hn hq

theorem loads_of_scanned {s : RecordStore durable} {r : OrderRecord} (hr : r ∈ s.scan.records) :
    Loads s r.orderId r :=
  ⟨mem_rows_iff.mp (mem_scan_records.mp hr).1, (mem_scan_records.mp hr).2.2⟩

/-- The first loop gets through, and leaves the rows that cannot be read. -/
theorem scanned_interrupts (now : Timestamp) (report : RecoveryReport) {s : RecordStore durable}
    (hunder : ∀ orderId r, s.find? orderId = some r → Underway r) :
    ∃ report' t, recoverRecords now s.scan.records report s = .ok (report', t) ∧
      Pass find? OrderRecord.orderId (fun r r' => r' = interrupted now r) s.scan.records s t ∧
      ∀ r, s.find? r.orderId = some r → r ∉ s.scan.records → t.find? r.orderId = some r := by
  obtain ⟨report', t, hloop, hpass⟩ := recoverRecords_interrupts now report (fun r hr => loads_of_scanned hr)
    s.nodup_scan_records (fun r hr => (mem_scan_records.mp hr).2.1)
    (fun r hr => hunder _ r (loads_of_scanned hr).1)
  refine ⟨report', t, hloop, hpass, fun r hr hn => ?_⟩
  have hid := not_mem_map_orderId (fun q hq => (mem_scan_records.mp hq).1) hr hn
  exact (hpass.others r.orderId hid).trans hr

theorem not_scanned_of_damaged {s : RecordStore durable} {r : OrderRecord} (hr : r ∈ damaged s) :
    s.find? r.orderId = some r ∧ r ∉ s.scan.records := by
  obtain ⟨hrow, _, hunreadable⟩ := mem_damaged.mp hr
  refine ⟨mem_rows_iff.mp hrow, fun hin => ?_⟩
  rw [(mem_scan_records.mp hin).2.2] at hunreadable
  cases hunreadable

theorem recover_recovers (now : Timestamp) (s : RecordStore true)
    (hunder : ∀ orderId r, s.find? orderId = some r → Underway r) :
    ∃ report t, recover now s = .ok (report, t) ∧
      ∀ orderId r, s.find? orderId = some r → t.find? orderId = some (recovered now r) := by
  obtain ⟨report, t, hrecords, hinterrupted, hmissed⟩ := scanned_interrupts now
    { durable := true, scanned := s.scan.records.length + s.scan.unreadable.length } hunder
  have hdamaged : ∀ r ∈ damaged s, t.find? r.orderId = some r := by
    intro r hr
    obtain ⟨hfind, hunscanned⟩ := not_scanned_of_damaged hr
    exact hmissed r hfind hunscanned
  obtain ⟨u, hunreadable, hnoted⟩ := recoverUnreadable_notes now (damaged s) hdamaged (nodup_damaged s)
  have hkept : ∀ {r}, s.find? r.orderId = some r → r ∉ damaged s → u.find? r.orderId = t.find? r.orderId :=
    fun hr hn => hnoted.others _ (not_mem_map_orderId (fun q hq => (mem_damaged.mp hq).1) hr hn)
  refine ⟨{ report with unreadable := s.scan.unreadable.map UnreadableOrder.orderId }, u, ?_, ?_⟩
  · have hscan : (OrderRepository.scanOpen : OrderM (RecordStore true) OpenOrderScan) s = .ok (s.scan, s) := rfl
    have hnotes : recoverUnreadable now s.scan.unreadable t = .ok ((), u) := hunreadable
    unfold recover
    rw [if_neg (by decide), Transaction.bind_of_ok hscan, Transaction.bind_of_ok hrecords,
      Transaction.bind_of_ok hnotes]
    rfl
  · intro orderId r hr
    cases orderId_of_find? hr
    have hrow := mem_rows_iff.mpr hr
    unfold recovered
    cases hterminal : r.isTerminal with
    | true =>
        have hunscanned : r ∉ s.scan.records := fun hin => by simp [(mem_scan_records.mp hin).2.1] at hterminal
        have hundamaged : r ∉ damaged s := fun hin => by simp [(mem_damaged.mp hin).2.1] at hterminal
        rw [hkept hr hundamaged, if_pos rfl]
        exact hmissed r hr hunscanned
    | false =>
        rw [if_neg (by decide)]
        cases hreadable : readable true r with
        | true =>
            have hundamaged : r ∉ damaged s := fun hin => by simp [(mem_damaged.mp hin).2.2] at hreadable
            rw [hkept hr hundamaged, if_pos rfl]
            obtain ⟨r', hr', rfl⟩ := hinterrupted.own r (mem_scan_records.mpr ⟨hrow, hterminal, hreadable⟩)
            exact hr'
        | false =>
            rw [if_neg (by decide)]
            obtain ⟨r', hr', rfl⟩ := hnoted.own r (mem_damaged.mpr ⟨hrow, hterminal, hreadable⟩)
            exact hr'

/-- The orders that forbid a new entry. -/
def blockers (scan : OpenOrderScan) : List String :=
  (scan.records.filter OrderRecord.isUnreconciled).map OrderRecord.orderId ++
    scan.unreadable.map UnreadableOrder.orderId

theorem length_blockers (scan : OpenOrderScan) : (blockers scan).length = scan.blocking := by
  simp [blockers, OpenOrderScan.blocking]

theorem reconciliationPending_counts (s : RecordStore durable) :
    ∃ pending, reconciliationPending s = .ok (pending, s) ∧ pending.count = (blockers s.scan).length := by
  have hscan : (OrderRepository.scanOpen : OrderM (RecordStore durable) OpenOrderScan) s = .ok (s.scan, s) := rfl
  rw [length_blockers]
  unfold reconciliationPending
  rw [Transaction.bind_of_ok hscan]
  by_cases h : s.scan.blocking = 0
  · rw [if_pos h]
    exact ⟨_, rfl, h.symm⟩
  · rw [if_neg h]
    exact ⟨_, rfl, rfl⟩

theorem mem_blockers_of_unreconciled {s : RecordStore durable} {r : OrderRecord}
    (hr : s.find? r.orderId = some r) (hu : r.isUnreconciled) : r.orderId ∈ blockers s.scan := by
  have hrow := mem_rows_iff.mpr hr
  have hopen : r.isTerminal = false := by
    rw [OrderRecord.isUnreconciled] at hu
    rw [OrderRecord.isTerminal]
    cases hstate : r.state <;> simp_all [OrderState.isTerminal]
  rw [blockers, List.mem_append]
  cases hreadable : readable durable r with
  | true =>
      left
      have hin := mem_scan_records.mpr ⟨hrow, hopen, hreadable⟩
      exact List.mem_map.mpr ⟨r, List.mem_filter.mpr ⟨hin, hu⟩, rfl⟩
  | false =>
      right
      have hin := mem_damaged.mpr ⟨hrow, hopen, hreadable⟩
      exact List.mem_map.mpr ⟨unreadableOrder r, List.mem_map.mpr ⟨r, hin, rfl⟩, rfl⟩

theorem not_mem_blockers {s : RecordStore durable} {r : OrderRecord} (hr : s.find? r.orderId = some r)
    (hu : r.isUnreconciled = false) (hreadable : readable durable r) : r.orderId ∉ blockers s.scan := by
  have hsame : ∀ q ∈ s.rows, q.orderId = r.orderId → q = r := by
    intro q hq he
    have hfind := mem_rows_iff.mp hq
    rw [he, hr] at hfind
    cases hfind
    rfl
  intro hin
  rw [blockers, List.mem_append, List.mem_map, List.mem_map] at hin
  rcases hin with ⟨q, hq, he⟩ | ⟨d, hd, he⟩
  · obtain ⟨hq, hqu⟩ := List.mem_filter.mp hq
    rw [hsame q (mem_scan_records.mp hq).1 he, hu] at hqu
    cases hqu
  · obtain ⟨q, hq, rfl⟩ := List.mem_map.mp hd
    rw [hsame q (mem_damaged.mp hq).1 he] at hq
    rw [(mem_damaged.mp hq).2.2] at hreadable
    cases hreadable

end Aetheris.Recovery
