import Aetheris.CrashWindow
import Aetheris.OrderTotals

namespace Aetheris.Restart

open Lib Clock Enums OrderRecords OrderMachine OrderStore OrderEngine OrderCalls OrderWrites RecordStore Recovery
open OrderIdentity Transaction CrashWindow

variable {now later : Timestamp} {s t u : RecordStore true} {r r' : OrderRecord}

def openingReport (s : RecordStore true) : RecoveryReport :=
  { durable := true, scanned := s.scan.records.length + s.scan.unreadable.length }

/-- Where `recover` may be cut off: it got through a part of what its scan found. -/
inductive Interrupted (now : Timestamp) (s : RecordStore true) : RecordStore true → Prop
  | scanning {done rest report t} : s.scan.records = done ++ rest →
      recoverRecords now done (openingReport s) s = .ok (report, t) → Interrupted now s t
  | noting {report t done rest u} : recoverRecords now s.scan.records (openingReport s) s = .ok (report, t) →
      s.scan.unreadable = done ++ rest → recoverUnreadable now done t = .ok ((), u) → Interrupted now s u

/-- Any number of restarts, none of which let recovery finish. -/
def Restarts : RecordStore true → RecordStore true → Prop :=
  Relation.ReflTransGen (fun s t => ∃ now, Interrupted now s t)

/-- What runs of recovery, whole or not, make of a stored row. -/
inductive Recovering (r : OrderRecord) : OrderRecord → Prop
  | untouched : Recovering r r
  | interrupted (now : Timestamp) : r.isTerminal = false → readable true r →
      Recovering r (Recovery.interrupted now r)
  | noted (more : List OrderDiscrepancy) : r.isTerminal = false → readable true r = false →
      Recovering r { r with discrepancies := r.discrepancies ++ more }

/-- The same record but for the time it was last written. -/
def SameButTime (a b : OrderRecord) : Prop := { a with updatedAt := b.updatedAt } = b

def inFlight (r : OrderRecord) : Bool := !r.isUnreconciled && r.reachedVenue

theorem interrupted_of_inFlight (h : inFlight r) (now : Timestamp) :
    Recovery.interrupted now r = withUnknown r interruptedReason now := by
  rw [inFlight, Bool.and_eq_true, Bool.not_eq_true'] at h
  simp [Recovery.interrupted, h.1, h.2]

theorem interrupted_of_not_inFlight (h : inFlight r = false) (now : Timestamp) : Recovery.interrupted now r = r := by
  rw [inFlight, Bool.and_eq_false_iff, Bool.not_eq_false'] at h
  rcases h with h | h <;> simp [Recovery.interrupted, h]

theorem recovered_of_readable (hopen : r.isTerminal = false) (hreadable : readable true r) (now : Timestamp) :
    recovered now r = Recovery.interrupted now r := by
  simp [recovered, hopen, hreadable]

theorem recovered_of_unreadable (hopen : r.isTerminal = false) (hreadable : readable true r = false)
    (now : Timestamp) : recovered now r = withUnreadable r (damagedDetail (unreadableOrder r)) now := by
  simp [recovered, hopen, hreadable]

theorem recovered_of_terminal (h : r.isTerminal) (now : Timestamp) : recovered now r = r := by
  simp [recovered, h]

/-- An order that recovery moved is UNKNOWN, and stays as it was moved. -/
theorem interrupted_interrupted (r : OrderRecord) (now later : Timestamp) :
    Recovery.interrupted later (Recovery.interrupted now r) =
      if inFlight r then Recovery.interrupted now r else Recovery.interrupted later r := by
  cases h : inFlight r with
  | true =>
      have hmoved : inFlight (withUnknown r interruptedReason now) = false := rfl
      rw [interrupted_of_inFlight h, if_pos rfl, interrupted_of_not_inFlight hmoved]
  | false => rw [interrupted_of_not_inFlight h, if_neg (by decide)]

theorem open_interrupted (hopen : r.isTerminal = false) (now : Timestamp) :
    (Recovery.interrupted now r).isTerminal = false := by
  cases h : inFlight r with
  | true =>
      rw [interrupted_of_inFlight h]
      rfl
  | false =>
      rw [interrupted_of_not_inFlight h]
      exact hopen

theorem readable_interrupted (r : OrderRecord) (now : Timestamp) :
    readable true (Recovery.interrupted now r) = readable true r := by
  cases h : inFlight r with
  | true =>
      rw [interrupted_of_inFlight h]
      rfl
  | false => rw [interrupted_of_not_inFlight h]

theorem recovering_recovered (r : OrderRecord) (now : Timestamp) : Recovering r (recovered now r) := by
  cases hopen : r.isTerminal with
  | true =>
      rw [recovered_of_terminal hopen]
      exact .untouched
  | false =>
      cases hreadable : readable true r with
      | true =>
          rw [recovered_of_readable hopen hreadable]
          exact .interrupted now hopen hreadable
      | false =>
          rw [recovered_of_unreadable hopen hreadable]
          exact .noted _ hopen hreadable

theorem Recovering.trans {a b c : OrderRecord} (h : Recovering a b) (h' : Recovering b c) : Recovering a c := by
  cases h with
  | untouched => exact h'
  | interrupted now hopen hreadable =>
      cases h' with
      | untouched => exact .interrupted now hopen hreadable
      | interrupted later =>
          rw [interrupted_interrupted]
          split
          · exact .interrupted now hopen hreadable
          · exact .interrupted later hopen hreadable
      | noted _ _ hunreadable =>
          rw [readable_interrupted, hreadable] at hunreadable
          cases hunreadable
  | noted more hopen hunreadable =>
      cases h' with
      | untouched => exact .noted more hopen hunreadable
      | interrupted _ _ hreadable =>
          have hkept : readable true a := hreadable
          rw [hunreadable] at hkept
          cases hkept
      | noted again =>
          dsimp only
          rw [List.append_assoc]
          exact .noted (more ++ again) hopen hunreadable

/-- However often recovery was cut off, a whole run leaves a readable order as
one run alone would have. -/
theorem Recovering.outcome (h : Recovering r r') (hreadable : readable true r) (now start : Timestamp) :
    SameButTime (recovered now r') (recovered start r) := by
  have hown : ∀ a b, r.isTerminal = false →
      SameButTime (Recovery.interrupted a r) (Recovery.interrupted b r) := by
    intro a b _
    cases hflight : inFlight r with
    | true =>
        rw [interrupted_of_inFlight hflight, interrupted_of_inFlight hflight]
        rfl
    | false =>
        rw [interrupted_of_not_inFlight hflight, interrupted_of_not_inFlight hflight]
        rfl
  cases h with
  | untouched =>
      cases hopen : r.isTerminal with
      | true =>
          rw [recovered_of_terminal hopen, recovered_of_terminal hopen]
          rfl
      | false =>
          rw [recovered_of_readable hopen hreadable, recovered_of_readable hopen hreadable]
          exact hown now start hopen
  | interrupted earlier hopen =>
      have hkept : readable true (Recovery.interrupted earlier r) := by rw [readable_interrupted, hreadable]
      rw [recovered_of_readable (open_interrupted hopen earlier) hkept, recovered_of_readable hopen hreadable,
        interrupted_interrupted]
      split
      · exact hown earlier start hopen
      · exact hown now start hopen
  | noted more _ hunreadable =>
      rw [hreadable] at hunreadable
      cases hunreadable

theorem settled_recovered (hopen : (recovered now r).isTerminal = false)
    (hreadable : readable true (recovered now r)) (hsent : (recovered now r).reachedVenue) :
    (recovered now r).isUnreconciled := by
  cases hterminal : r.isTerminal with
  | true =>
      rw [recovered_of_terminal hterminal, hterminal] at hopen
      cases hopen
  | false =>
      cases hr : readable true r with
      | false =>
          rw [recovered_of_unreadable hterminal hr] at hreadable
          have hunreadable : readable true (withUnreadable r (damagedDetail (unreadableOrder r)) now) = false := hr
          rw [hunreadable] at hreadable
          cases hreadable
      | true =>
          rw [recovered_of_readable hterminal hr] at hsent ⊢
          cases hflight : inFlight r with
          | true =>
              rw [interrupted_of_inFlight hflight]
              rfl
          | false =>
              rw [interrupted_of_not_inFlight hflight] at hsent ⊢
              simpa [inFlight, hsent] using hflight

theorem recovered_of_settled (h : r.isTerminal = false → readable true r → r.reachedVenue → r.isUnreconciled)
    (hreadable : readable true r) (now : Timestamp) : recovered now r = r := by
  cases hopen : r.isTerminal with
  | true => exact recovered_of_terminal hopen now
  | false =>
      have hflight : inFlight r = false := by
        cases hsent : r.reachedVenue with
        | true => simp [inFlight, h hopen hreadable hsent]
        | false => simp [inFlight, hsent]
      rw [recovered_of_readable hopen hreadable, interrupted_of_not_inFlight hflight]

theorem Recovering.underway (h : Recovering r r') (hr : Underway r) : Underway r' := by
  cases h with
  | untouched => exact hr
  | interrupted now =>
      cases hflight : inFlight r with
      | true =>
          rw [interrupted_of_inFlight hflight]
          exact fun _ => ⟨by simp [withUnknown], by simp [withUnknown]⟩
      | false =>
          rw [interrupted_of_not_inFlight hflight]
          exact hr
  | noted => exact hr.of_eq rfl rfl

/-- What the first loop may have done to a row, and what the second one may. -/
def Scanned (now : Timestamp) (r r' : OrderRecord) : Prop := r' = r ∨ readable true r ∧ r' = recovered now r

def Noted (now : Timestamp) (r r' : OrderRecord) : Prop :=
  r' = r ∨ readable true r = false ∧ r' = recovered now r

theorem readable_recovered (r : OrderRecord) (now : Timestamp) :
    readable true (recovered now r) = readable true r := by
  cases hopen : r.isTerminal with
  | true => rw [recovered_of_terminal hopen]
  | false =>
      cases hreadable : readable true r with
      | true =>
          rw [recovered_of_readable hopen hreadable, readable_interrupted]
          exact hreadable
      | false =>
          rw [recovered_of_unreadable hopen hreadable]
          exact hreadable

theorem recovering_of_loops {a b c : OrderRecord} (h : Scanned now a b) (h' : Noted now b c) : Recovering a c := by
  rcases h with rfl | ⟨hreadable, rfl⟩
  · rcases h' with rfl | ⟨_, rfl⟩
    · exact .untouched
    · exact recovering_recovered _ now
  · rcases h' with rfl | ⟨hunreadable, _⟩
    · exact recovering_recovered _ now
    · rw [readable_recovered, hreadable] at hunreadable
      cases hunreadable

section

variable (hunder : ∀ orderId r, s.find? orderId = some r → Underway r)

include hunder

theorem scanned_rowwise {done rest : List OrderRecord} {report report' : RecoveryReport}
    (hscan : s.scan.records = done ++ rest) (h : recoverRecords now done report s = .ok (report', t)) :
    Rowwise find? (Scanned now) s t := by
  have hdone : ∀ r ∈ done, r ∈ s.scan.records := by
    intro r hr
    rw [hscan]
    exact List.mem_append_left rest hr
  have hn : (done.map OrderRecord.orderId).Nodup := by
    have hall := s.nodup_scan_records
    rw [hscan] at hall
    exact ((List.sublist_append_left done rest).map OrderRecord.orderId).nodup hall
  have hopen : ∀ r ∈ done, r.isTerminal = false := fun r hr => (mem_scan_records.mp (hdone r hr)).2.1
  obtain ⟨_, t', hloop, hpass⟩ := recoverRecords_interrupts now report (fun r hr => loads_of_scanned (hdone r hr))
    hn hopen (fun r hr => hunder _ r (loads_of_scanned (hdone r hr)).1)
  rw [h] at hloop
  cases hloop
  refine hpass.rowwise (fun r hr => (loads_of_scanned (hdone r hr)).1) ?_ (fun r => .inl rfl)
  rintro r hr r' rfl
  have hreadable := (loads_of_scanned (hdone r hr)).2
  exact .inr ⟨hreadable, (recovered_of_readable (hopen r hr) hreadable now).symm⟩

theorem noted_rowwise {report report' : RecoveryReport} {done rest : List UnreadableOrder}
    (hloop : recoverRecords now s.scan.records report s = .ok (report', t))
    (hscan : s.scan.unreadable = done ++ rest) (h : recoverUnreadable now done t = .ok ((), u)) :
    Rowwise find? (Noted now) t u := by
  obtain ⟨_, t', hsame, _, hmissed⟩ := scanned_interrupts now report hunder
  rw [hloop] at hsame
  cases hsame
  obtain ⟨rs, rest, hdamaged, rfl, rfl⟩ :=
    List.map_eq_append_iff.mp (show (damaged s).map unreadableOrder = _ from hscan)
  have hmem : ∀ r ∈ rs, r ∈ damaged s := by
    intro r hr
    rw [hdamaged]
    exact List.mem_append_left rest hr
  have hfind : ∀ r ∈ rs, t.find? r.orderId = some r := by
    intro r hr
    obtain ⟨hr, hunscanned⟩ := not_scanned_of_damaged (hmem r hr)
    exact hmissed r hr hunscanned
  have hn : (rs.map OrderRecord.orderId).Nodup := by
    have hall := nodup_damaged s
    rw [hdamaged] at hall
    exact ((List.sublist_append_left rs rest).map OrderRecord.orderId).nodup hall
  obtain ⟨u', hloop', hpass⟩ := recoverUnreadable_notes now rs hfind hn
  rw [h] at hloop'
  cases hloop'
  refine hpass.rowwise hfind ?_ (fun r => .inl rfl)
  rintro r hr r' rfl
  obtain ⟨_, hopen, hunreadable⟩ := mem_damaged.mp (hmem r hr)
  exact .inr ⟨hunreadable, (recovered_of_unreadable hopen hunreadable now).symm⟩

theorem Interrupted.rowwise (h : Interrupted now s t) : Rowwise find? Recovering s t := by
  cases h with
  | scanning hscan hloop =>
      have hlast : Rowwise find? (Noted now) t t := Rowwise.refl (fun r => .inl rfl) t
      exact (scanned_rowwise hunder hscan hloop).trans hlast fun a b c hab hbc => recovering_of_loops hab hbc
  | noting hloop hscan hnotes =>
      have hfirst := scanned_rowwise hunder (List.append_nil _).symm hloop
      exact hfirst.trans (noted_rowwise hunder hloop hscan hnotes) fun a b c hab hbc => recovering_of_loops hab hbc

omit hunder in
theorem underway_of_rowwise (h : Rowwise find? Recovering s t)
    (hunder : ∀ orderId r, s.find? orderId = some r → Underway r) :
    ∀ orderId r, t.find? orderId = some r → Underway r := by
  intro orderId r' hr'
  obtain ⟨r, hr, hrecovering⟩ := h.source hr'
  exact hrecovering.underway (hunder orderId r hr)

theorem Restarts.rowwise (h : Restarts s t) : Rowwise find? Recovering s t := by
  induction h with
  | refl => exact Rowwise.refl (fun _ => .untouched) s
  | tail _ hstep ih =>
      obtain ⟨now, hinterrupted⟩ := hstep
      exact ih.trans (hinterrupted.rowwise (underway_of_rowwise ih hunder)) fun _ _ _ h h' => h.trans h'

omit hunder in
theorem recover_ok {p : RecoveryReport × RecordStore true} :
    recover now s = .ok p ↔ ∃ report t u, recoverRecords now s.scan.records (openingReport s) s = .ok (report, t) ∧
      recoverUnreadable now s.scan.unreadable t = .ok ((), u) ∧
      p = ({ report with unreadable := s.scan.unreadable.map UnreadableOrder.orderId }, u) := by
  have hscan : (OrderRepository.scanOpen : OrderM (RecordStore true) OpenOrderScan) s = .ok (s.scan, s) := rfl
  unfold recover
  rw [if_neg (by decide), bind_of_ok hscan, bind_ok]
  constructor
  · rintro ⟨report, t, hloop, h⟩
    obtain ⟨_, u, hnotes, h⟩ := bind_ok.mp h
    exact ⟨report, t, u, hloop, hnotes, pure_ok.mp h⟩
  · rintro ⟨report, t, u, hloop, hnotes, rfl⟩
    exact ⟨report, t, hloop, bind_ok.mpr ⟨(), u, hnotes, rfl⟩⟩

theorem recover_rowwise {report : RecoveryReport} (h : recover now s = .ok (report, t)) :
    Rowwise find? (fun r r' => r' = recovered now r) s t := by
  obtain ⟨report', t', hrecover, hrows⟩ := recover_recovers now s hunder
  rw [h] at hrecover
  cases hrecover
  obtain ⟨_, _, u, hloop, hnotes, he⟩ := recover_ok.mp h
  cases he
  have hwhole : Interrupted now s t := .noting hloop (List.append_nil _).symm hnotes
  refine Rowwise.of_rows (fun orderId r hr => ⟨_, hrows orderId r hr, rfl⟩) (fun orderId hnone => ?_)
  cases ht : t.find? orderId with
  | none => rfl
  | some r' =>
      obtain ⟨r, hr, _⟩ := (hwhole.rowwise hunder).source ht
      rw [hnone] at hr
      cases hr

end

def orderIds (records : List OrderRecord) (p : OrderRecord → Bool) : List String :=
  (records.filter p).map OrderRecord.orderId

theorem orderIds_cons (r : OrderRecord) (rest : List OrderRecord) (p : OrderRecord → Bool) :
    orderIds (r :: rest) p = (if p r then [r.orderId] else []) ++ orderIds rest p := by
  cases h : p r <;> simp [orderIds, h]

theorem recoverRecords_reports {records : List OrderRecord} {report report' : RecoveryReport}
    (h : recoverRecords now records report s = .ok (report', t)) :
    report'.alreadyUnresolved = report.alreadyUnresolved ++ orderIds records OrderRecord.isUnreconciled ∧
      report'.interrupted = report.interrupted ++ orderIds records inFlight := by
  induction records generalizing s report with
  | nil =>
      cases pure_ok.mp h
      exact ⟨(List.append_nil _).symm, (List.append_nil _).symm⟩
  | cons r rest ih =>
      rw [recoverRecords] at h
      rw [orderIds_cons, orderIds_cons]
      split at h
      · rename_i hsettled
        obtain ⟨halready, hmoved⟩ := ih h
        rw [halready, hmoved]
        simp [inFlight, hsettled]
      · rename_i hsettled
        split at h
        · rename_i hunsent
          obtain ⟨halready, hmoved⟩ := ih h
          rw [halready, hmoved]
          simp_all [inFlight]
        · rename_i hsent
          obtain ⟨_, u, _, h⟩ := bind_ok.mp h
          obtain ⟨halready, hmoved⟩ := ih h
          rw [halready, hmoved]
          simp_all [inFlight]

theorem recover_reports {report : RecoveryReport} (h : recover now s = .ok (report, t)) :
    report.alreadyUnresolved = orderIds s.scan.records OrderRecord.isUnreconciled ∧
      report.interrupted = orderIds s.scan.records inFlight := by
  obtain ⟨_, _, _, hloop, _, he⟩ := recover_ok.mp h
  cases he
  exact recoverRecords_reports hloop

theorem mem_orderIds_scan {p : OrderRecord → Bool} {orderId : String} :
    orderId ∈ orderIds s.scan.records p ↔
      ∃ r, s.find? orderId = some r ∧ r.isTerminal = false ∧ readable true r ∧ p r := by
  rw [orderIds, List.mem_map]
  constructor
  · rintro ⟨r, hr, rfl⟩
    obtain ⟨hr, hp⟩ := List.mem_filter.mp hr
    exact ⟨r, (loads_of_scanned hr).1, (mem_scan_records.mp hr).2.1, (loads_of_scanned hr).2, hp⟩
  · rintro ⟨r, hr, hopen, hreadable, hp⟩
    have hid := orderId_of_find? hr
    have hrow := mem_rows_iff.mpr (hid ▸ hr)
    exact ⟨r, List.mem_filter.mpr ⟨mem_scan_records.mpr ⟨hrow, hopen, hreadable⟩, hp⟩, hid⟩

theorem state_recovered_again (r : OrderRecord) (now later : Timestamp) :
    (recovered later (recovered now r)).state = (recovered now r).state ∧
      (readable true (recovered now r) → recovered later (recovered now r) = recovered now r) := by
  rw [readable_recovered]
  cases hreadable : readable true r with
  | true =>
      have hkept := recovered_of_settled (r := recovered now r) settled_recovered
        (by rw [readable_recovered, hreadable]) later
      exact ⟨by rw [hkept], fun _ => hkept⟩
  | false =>
      refine ⟨?_, fun h => nomatch h⟩
      cases hopen : r.isTerminal with
      | true =>
          rw [recovered_of_terminal hopen, recovered_of_terminal hopen]
      | false =>
          rw [recovered_of_unreadable hopen hreadable]
          have hagain := recovered_of_unreadable
            (r := withUnreadable r (damagedDetail (unreadableOrder r)) now) hopen hreadable later
          rw [hagain]
          rfl

/-- What a run leaves unresolved is what it found unresolved and what it moved. -/
theorem unresolved_recovered (r : OrderRecord) (now : Timestamp) :
    ((recovered now r).isTerminal = false ∧ readable true (recovered now r) ∧ (recovered now r).isUnreconciled) ↔
      r.isTerminal = false ∧ readable true r ∧ (r.isUnreconciled ∨ inFlight r) := by
  cases hopen : r.isTerminal with
  | true => simp [recovered_of_terminal hopen, hopen]
  | false =>
      cases hreadable : readable true r with
      | false =>
          have hkept : readable true (recovered now r) = false := by
            rw [recovered_of_unreadable hopen hreadable]
            exact hreadable
          simp [hkept]
      | true =>
          rw [recovered_of_readable hopen hreadable, open_interrupted hopen, readable_interrupted, hreadable]
          simp only [true_and]
          cases hflight : inFlight r with
          | true =>
              rw [interrupted_of_inFlight hflight]
              exact ⟨fun _ => .inr rfl, fun _ => rfl⟩
          | false =>
              rw [interrupted_of_not_inFlight hflight]
              exact ⟨fun h => .inl h, fun h => h.resolve_right (by decide)⟩

/-- What a run of recovery that got to its end leaves of the store `s` that
the runs before it were cut off on. -/
structure Completed (s : RecordStore true) (report : RecoveryReport) (u : RecordStore true) : Prop where
  uninterrupted : ∀ start, ∃ alone v, recover start s = .ok (alone, v) ∧
    ∀ orderId r, s.find? orderId = some r → readable true r →
      ∃ a b, u.find? orderId = some a ∧ v.find? orderId = some b ∧ SameButTime a b
  settled : ∀ orderId r, u.find? orderId = some r → r.isTerminal = false → readable true r → r.reachedVenue →
    r.isUnreconciled
  unsent : ∀ orderId r, s.find? orderId = some r → r.isTerminal = false → readable true r →
    r.reachedVenue = false → u.find? orderId = some r
  again : ∀ later, ∃ report' v, recover later u = .ok (report', v) ∧
    Rowwise find? (fun r r' => r'.state = r.state ∧ (readable true r → r' = r)) u v ∧
    report'.interrupted = [] ∧
    ∀ orderId, orderId ∈ report'.alreadyUnresolved ↔
      orderId ∈ report.alreadyUnresolved ∨ orderId ∈ report.interrupted

theorem recovering_unsent (h : Recovering r r') (hunsent : r.reachedVenue = false) (hreadable : readable true r) :
    r' = r := by
  cases h with
  | untouched => rfl
  | interrupted => simp [Recovery.interrupted, hunsent]
  | noted _ _ hunreadable =>
      rw [hreadable] at hunreadable
      cases hunreadable

theorem recover_again {report : RecoveryReport} (hunder : ∀ orderId r, t.find? orderId = some r → Underway r)
    (h : recover now t = .ok (report, u)) (later : Timestamp) :
    ∃ report' v, recover later u = .ok (report', v) ∧
      Rowwise find? (fun r r' => r'.state = r.state ∧ (readable true r → r' = r)) u v ∧
      report'.interrupted = [] ∧
      ∀ orderId, orderId ∈ report'.alreadyUnresolved ↔
        orderId ∈ report.alreadyUnresolved ∨ orderId ∈ report.interrupted := by
  have hrows := recover_rowwise hunder h
  have hunder' : ∀ orderId r, u.find? orderId = some r → Underway r := by
    intro orderId r' hr'
    obtain ⟨r, hr, rfl⟩ := hrows.source hr'
    exact (recovering_recovered r now).underway (hunder orderId r hr)
  obtain ⟨report', v, hagain, _⟩ := recover_recovers later u hunder'
  obtain ⟨halready, hmoved⟩ := recover_reports h
  obtain ⟨halready', hmoved'⟩ := recover_reports hagain
  refine ⟨report', v, hagain, ?_, ?_, fun orderId => ?_⟩
  · refine (recover_rowwise hunder' hagain).imp fun orderId r' r'' hr' he => ?_
    obtain ⟨r, hr, rfl⟩ := hrows.source hr'
    rw [he]
    exact state_recovered_again r now later
  · rw [hmoved', List.eq_nil_iff_forall_not_mem]
    intro orderId hin
    obtain ⟨r', hr', hopen, hreadable, hflight⟩ := mem_orderIds_scan.mp hin
    obtain ⟨r, hr, rfl⟩ := hrows.source hr'
    rw [inFlight, Bool.and_eq_true, Bool.not_eq_true'] at hflight
    rw [settled_recovered hopen hreadable hflight.2] at hflight
    cases hflight.1
  · rw [halready', halready, hmoved, mem_orderIds_scan, mem_orderIds_scan, mem_orderIds_scan]
    constructor
    · rintro ⟨r', hr', hopen, hreadable, hsettled⟩
      obtain ⟨r, hr, rfl⟩ := hrows.source hr'
      obtain ⟨hopen, hreadable, hsettled | hflight⟩ := (unresolved_recovered r now).mp ⟨hopen, hreadable, hsettled⟩
      · exact .inl ⟨r, hr, hopen, hreadable, hsettled⟩
      · exact .inr ⟨r, hr, hopen, hreadable, hflight⟩
    · have hback : ∀ r, t.find? orderId = some r → r.isTerminal = false → readable true r →
          r.isUnreconciled ∨ inFlight r → ∃ r', u.find? orderId = some r' ∧ r'.isTerminal = false ∧
            readable true r' ∧ r'.isUnreconciled := by
        intro r hr hopen hreadable hwas
        obtain ⟨r', hr', rfl⟩ := hrows.row hr
        exact ⟨_, hr', (unresolved_recovered r now).mpr ⟨hopen, hreadable, hwas⟩⟩
      rintro (⟨r, hr, hopen, hreadable, hsettled⟩ | ⟨r, hr, hopen, hreadable, hflight⟩)
      · exact hback r hr hopen hreadable (.inl hsettled)
      · exact hback r hr hopen hreadable (.inr hflight)

section

variable [Runtime]

/-- However often recovery is cut off between its writes, the run that gets to
its end leaves what one run would have left, and nothing for the next one to move. -/
theorem recovery_survives_restarts (s t : RecordStore true) (hs : Deployed s) (h : Restarts s t)
    (now : Timestamp) : ∃ report u, recover now t = .ok (report, u) ∧ Completed s report u := by
  have hunder := hs.underway
  have hcut := h.rowwise hunder
  have hunder' := underway_of_rowwise hcut hunder
  obtain ⟨report, u, hrecover, _⟩ := recover_recovers now t hunder'
  have hrows := recover_rowwise hunder' hrecover
  refine ⟨report, u, hrecover, ?_, ?_, ?_, recover_again hunder' hrecover⟩
  · intro start
    obtain ⟨alone, v, halone, hone⟩ := recover_recovers start s hunder
    refine ⟨alone, v, halone, fun orderId r hr hreadable => ?_⟩
    obtain ⟨r', hr', hrecovering⟩ := hcut.row hr
    obtain ⟨_, ha, rfl⟩ := hrows.row hr'
    exact ⟨_, _, ha, hone orderId r hr, hrecovering.outcome hreadable now start⟩
  · intro orderId a ha hopen hreadable hsent
    obtain ⟨r', _, rfl⟩ := hrows.source ha
    exact settled_recovered hopen hreadable hsent
  · intro orderId r hr hopen hreadable hunsent
    obtain ⟨r', hr', hrecovering⟩ := hcut.row hr
    obtain ⟨_, ha, rfl⟩ := hrows.row hr'
    rw [ha, recovering_unsent (hrecovering.trans (recovering_recovered r' now)) hunsent hreadable]

end

/-- Recovery is cut off after it moved the only order, and runs again. -/
theorem recovery_survives_restarts_submitted :
    ∃ s t report u, (s.find? "order-1").any (fun r => r.state = .submitted) ∧
      (t.find? "order-1").any (fun r => r.state = .unknown) ∧ Interrupted 5 s t ∧
      recover 9 t = .ok (report, u) ∧ Completed s report u := by
  let _ : Runtime := referenceRuntime
  have hdeployed : Deployed (run examplePerform empty exampleSubmission) :=
    .operated (.markSubmitting "order-1" 2) (.operated (.markValidating "order-1" 1)
      (.operated (.create "order-1" exampleIntent) .empty))
  have hsent : ((run examplePerform empty exampleSubmission).find? "order-1").any
      (fun r => r.state = .submitted && readable true r && inFlight r) := by decide +kernel
  generalize run examplePerform empty exampleSubmission = s at hdeployed hsent
  obtain ⟨r, hr, hsent⟩ := Option.any_eq_true _ _ |>.mp hsent
  obtain ⟨⟨hstate, hreadable⟩, hflight⟩ : (r.state = .submitted ∧ readable true r) ∧ inFlight r := by
    simpa using hsent
  obtain ⟨_, t, hloop, hpass, _⟩ := scanned_interrupts 5 (openingReport s) hdeployed.underway
  have hcut : Interrupted 5 s t := .scanning (List.append_nil _).symm hloop
  have hscanned : r ∈ s.scan.records := by
    have hid := orderId_of_find? hr
    refine mem_scan_records.mpr ⟨mem_rows_iff.mpr (hid ▸ hr), ?_, hreadable⟩
    rw [OrderRecord.isTerminal, hstate]
    rfl
  obtain ⟨r', hr', rfl⟩ := hpass.own r hscanned
  rw [orderId_of_find? hr, interrupted_of_inFlight hflight] at hr'
  obtain ⟨report, u, hrecover, hcompleted⟩ :=
    recovery_survives_restarts s t hdeployed (.single ⟨5, hcut⟩) 9
  exact ⟨s, t, report, u, by simp [hr, hstate], by simp [hr', withUnknown], hcut, hrecover, hcompleted⟩

/-- An adopted total and a fill over it: the order cannot be loaded, and stays
where it was. -/
theorem adoptedThenFilledRun_unrecovered :
    ∃ p ∈ (recover 9 (run examplePerform empty OrderTotals.adoptedThenFilledRun)).toOption,
      ∃ r ∈ p.2.find? "order-1", r.isTerminal = false ∧ r.submittedAt.isSome ∧ r.isUnreconciled = false := by
  decide +kernel

end Aetheris.Restart
