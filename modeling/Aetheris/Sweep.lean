import Aetheris.TestnetService
import Aetheris.Settlement

namespace Aetheris.Sweep

open Lib Coroutine Money Clock Enums OrderRecords OrderMachine OrderStore OrderEngine OrderCalls OrderWrites
open RecordStore TestnetService Settlement
open Reconcile hiding decide

inductive VenueAnswer
  | view (view : VenueOrderView)
  | absent
  | unreachable (message : String)

namespace VenueAnswer

def reply : VenueAnswer → Except ServiceError (Option VenueOrderView)
  | view v => .ok (some v)
  | absent => .ok none
  | unreachable message => .error (.exchange message)

def view? : VenueAnswer → Option VenueOrderView
  | view v => some v
  | _ => none

def reachable : VenueAnswer → Bool
  | unreachable _ => false
  | _ => true

theorem view?_of_unreachable {a : VenueAnswer} (h : a.reachable = false) : a.view? = none := by
  cases a <;> first | rfl | cases h

def isAbsent : VenueAnswer → Bool
  | absent => true
  | _ => false

end VenueAnswer

variable {durable : Bool}

/-- A store whose venue answers by client order id. -/
def env (answer : String → VenueAnswer) (now : Timestamp) :
    {β : Type} → Effect (RecordStore durable) β → RecordStore durable →
      Except ServiceError β × RecordStore durable
  | _, .utcnow, s => (.ok now, s)
  | _, .transact step, s =>
      match step s with
      | .ok (a, t) => (.ok a, t)
      | .error e => (.error (.order e), s)
  | _, .query _ clientOrderId, s => ((answer clientOrderId).reply, s)
  | _, _, s => (.error (.other "a sweep awaits nothing else"), s)

variable (answer : String → VenueAnswer) (now : Timestamp) (s : RecordStore durable)

def sweep : Except ServiceError ReconciliationSweep × RecordStore durable :=
  reconcileAll.interp (env answer now) s

/-- Orders that were sent and are not settled, as the store holds them. -/
def unsettled : List OrderRecord := s.rows.filter (fun r => r.reachedVenue && !r.isTerminal)

def candidates : List OrderRecord := s.scan.records.filter (fun r => r.reachedVenue && !r.isTerminal)

def answered (rs : List OrderRecord) : Answers :=
  (rs.filter (fun r => (answer r.clientOrderId).reachable)).map
    (fun r => (r.orderId, (answer r.clientOrderId).view?))

def unanswered (rs : List OrderRecord) : List String :=
  (rs.filter (fun r => !(answer r.clientOrderId).reachable)).map OrderRecord.orderId

/-- At least two orders answered for, and all of them absent. -/
def Reset (rs : List OrderRecord) : Prop :=
  2 ≤ (rs.filter (fun r => (answer r.clientOrderId).reachable)).length ∧
    ∀ r ∈ rs, (answer r.clientOrderId).reachable → (answer r.clientOrderId).isAbsent

/-- The record a decision asks for: its state, totals and venue order id. -/
structure Prescribed (decision : ReconciliationDecision) (r r' : OrderRecord) : Prop where
  state : r'.state = decision.targetState.getD r.state
  filledQuantity : r'.filledQuantity = decision.filledQuantity.getD r.filledQuantity
  averageFillPrice : r'.averageFillPrice =
    if decision.filledQuantity.isSome then decision.averageFillPrice else r.averageFillPrice
  venueOrderId : r'.venueOrderId = decision.venueOrderId.or r.venueOrderId

def decisionFor (r : OrderRecord) (a : VenueAnswer) : ReconciliationDecision :=
  Reconcile.decide r a.view? a.reachable

/-- What the answer says is all taken up when it is applied: it is not about
the state the record is already in, or says of it what is known. -/
def TakenUp (r : OrderRecord) (a : VenueAnswer) : Prop :=
  ∀ view ∈ a.view?, Contradicts r view ∨ view.state ≠ r.state ∨ Carries r view

def AsksNothing (r : OrderRecord) : VenueAnswer → Prop
  | .view v => Contradicts r v ∨ Carries r v
  | .absent => absentState r = r.state
  | .unreachable _ => True

/-- An order the sweep asks about takes its answer up. One that it cannot
load is not asked about, and stays as it is. -/
def Settleable (durable : Bool) (r : OrderRecord) (a : VenueAnswer) : Prop :=
  if readable durable r then Applicable r a.view? a.reachable ∧ TakenUp r a else AsksNothing r a

/-- The sweep returns. A reset changes no order; otherwise every sent order
that was open ends as its own answer prescribes. -/
def Settles : Prop :=
  ∃ report t, sweep answer now s = (.ok report, t) ∧
    (Reset answer (candidates s) → ∀ orderId r, s.find? orderId = some r →
      ∃ r', t.find? orderId = some r' ∧ r'.state = r.state ∧ r'.fills = r.fills ∧
        r'.filledQuantity = r.filledQuantity ∧ r'.averageFillPrice = r.averageFillPrice) ∧
    (¬ Reset answer (candidates s) → ∀ r ∈ unsettled s,
      ∃ r', t.find? r.orderId = some r' ∧ Prescribed (decisionFor r (answer r.clientOrderId)) r r')

section

variable {answer now s}

theorem queryAll_interp (rs : List OrderRecord) (answers : Answers) (unreachable : List String) :
    (queryAll rs answers unreachable).interp (env answer now) s =
      (.ok (answers ++ answered answer rs, unreachable ++ unanswered answer rs), s) := by
  induction rs generalizing answers unreachable with
  | nil => simp [queryAll, answered, unanswered, interp, pure]
  | cons r rest ih =>
      have hquery : ((perform (.query r.intent.symbol r.clientOrderId) :
          ServiceM (RecordStore durable) (Option VenueOrderView)).caught).interp (env answer now) s =
          (.ok (answer r.clientOrderId).reply, s) := by
        rw [interp_caught, interp_perform]
        rfl
      rw [queryAll, interp_bind_of_ok _ hquery]
      cases ha : answer r.clientOrderId with
      | view v =>
          refine (ih (answers ++ [(r.orderId, some v)]) unreachable).trans ?_
          simp [answered, unanswered, ha, VenueAnswer.reachable, VenueAnswer.view?]
      | absent =>
          refine (ih (answers ++ [(r.orderId, none)]) unreachable).trans ?_
          simp [answered, unanswered, ha, VenueAnswer.reachable, VenueAnswer.view?]
      | unreachable message =>
          refine (ih answers (unreachable ++ [r.orderId])).trans ?_
          simp [answered, unanswered, ha, VenueAnswer.reachable]

theorem contains_unanswered {rs : List OrderRecord} (hn : (rs.map OrderRecord.orderId).Nodup) {r : OrderRecord}
    (hr : r ∈ rs) : (unanswered answer rs).contains r.orderId = !(answer r.clientOrderId).reachable := by
  rw [Bool.eq_iff_iff, List.contains_iff_mem, unanswered]
  simp only [List.mem_map, List.mem_filter]
  constructor
  · rintro ⟨q, ⟨hq, ha⟩, hid⟩
    cases List.inj_on_of_nodup_map hn hq hr hid
    exact ha
  · intro ha
    exact ⟨r, ⟨hr, ha⟩, rfl⟩

theorem lookup_answered {rs : List OrderRecord} (hn : (rs.map OrderRecord.orderId).Nodup) {r : OrderRecord}
    (hr : r ∈ rs) (ha : (answer r.clientOrderId).reachable) :
    ((answered answer rs).lookup r.orderId).join = (answer r.clientOrderId).view? := by
  induction rs with
  | nil => cases hr
  | cons q rest ih =>
      obtain ⟨hq, hn⟩ := List.nodup_cons.mp hn
      rcases List.mem_cons.mp hr with rfl | hr
      · simp [answered, ha]
      · have hne : r.orderId ≠ q.orderId := fun he => hq (List.mem_map.mpr ⟨r, hr, he⟩)
        have hrest := ih hn hr
        cases hqa : (answer q.clientOrderId).reachable with
        | true => simpa [answered, hqa, List.lookup_cons, beq_eq_false_iff_ne.mpr hne] using hrest
        | false => simpa [answered, hqa] using hrest

theorem transact_ok {α : Type} {step : OrderM (RecordStore durable) α} {t : RecordStore durable} {a : α}
    (h : step s = .ok (a, t)) :
    (perform (.transact step) : ServiceM (RecordStore durable) α).interp (env answer now) s = (.ok a, t) := by
  rw [interp_perform]
  simp [env, h]

theorem transact_error {α : Type} {step : OrderM (RecordStore durable) α} {e : OrderError}
    (h : step s = .error e) :
    (perform (.transact step) : ServiceM (RecordStore durable) α).interp (env answer now) s =
      (.error (.order e), s) := by
  rw [interp_perform]
  simp [env, h]

theorem settleAll_cons {answers : Answers} {unreachable : List String} {r : OrderRecord}
    (now : Timestamp) (s : RecordStore durable) (rest : List OrderRecord) (resolved : Nat)
    (hunreachable : unreachable.contains r.orderId = !(answer r.clientOrderId).reachable)
    (hview : (answer r.clientOrderId).reachable →
      (answers.lookup r.orderId).join = (answer r.clientOrderId).view?) :
    ∃ next : OrderRecord → Nat,
      (settleAll answers unreachable now (r :: rest) resolved).interp (env answer now) s =
        match OrderEngine.reconcile r.orderId (answer r.clientOrderId).view?
            (answer r.clientOrderId).reachable now s with
        | .ok (p, t) => (settleAll answers unreachable now rest (next p.1)).interp (env answer now) t
        | .error e => (.error (.order e), s) := by
  cases hreach : (answer r.clientOrderId).reachable with
  | false =>
      rw [VenueAnswer.view?_of_unreachable hreach]
      have hin : unreachable.contains r.orderId = true := by rw [hunreachable, hreach]; rfl
      refine ⟨fun _ => resolved, ?_⟩
      rw [settleAll, if_pos hin]
      cases hs : OrderEngine.reconcile r.orderId none false now s with
      | ok p => exact interp_bind_of_ok _ (transact_ok hs)
      | error e => exact interp_bind_of_error _ (transact_error hs)
  | true =>
      have hout : ¬ unreachable.contains r.orderId = true := by rw [hunreachable, hreach]; decide
      refine ⟨fun after => if after.isTerminal then resolved + 1 else resolved, ?_⟩
      rw [settleAll, if_neg hout]
      dsimp only
      rw [hview hreach]
      cases hs : OrderEngine.reconcile r.orderId (answer r.clientOrderId).view? true now s with
      | ok p => exact interp_bind_of_ok _ (transact_ok hs)
      | error e => exact interp_bind_of_error _ (transact_error hs)

def Asked (answer : String → VenueAnswer) (answers : Answers) (unreachable : List String)
    (rs : List OrderRecord) : Prop :=
  ∀ r ∈ rs, (unreachable.contains r.orderId = !(answer r.clientOrderId).reachable) ∧
    ((answer r.clientOrderId).reachable →
      (answers.lookup r.orderId).join = (answer r.clientOrderId).view?)

theorem Asked.rest {answers : Answers} {unreachable : List String} {r : OrderRecord} {rest : List OrderRecord}
    (h : Asked answer answers unreachable (r :: rest)) : Asked answer answers unreachable rest :=
  fun q hq => h q (List.mem_cons_of_mem r hq)

abbrev Settled (answer : String → VenueAnswer) (now : Timestamp) (rs : List OrderRecord)
    (s t : RecordStore durable) : Prop :=
  Pass find? OrderRecord.orderId (fun r r' => Applies (decisionFor r (answer r.clientOrderId)) now r r') rs s t

theorem settleAll_settles {answers : Answers} {unreachable : List String} {rs : List OrderRecord}
    {resolved n : Nat} {t : RecordStore durable}
    (h : (settleAll answers unreachable now rs resolved).interp (env answer now) s = (.ok n, t))
    (hasked : Asked answer answers unreachable rs) (hn : (rs.map OrderRecord.orderId).Nodup)
    (hs : ∀ r ∈ rs, s.find? r.orderId = some r) : Settled answer now rs s t := by
  have hpass : ∃ m u, ((settleAll answers unreachable now [] m).interp (env answer now) u = (.ok n, t) ∧
      Asked answer answers unreachable []) ∧ Settled answer now rs s u := by
    apply pass_of_turns (fun rest m u => (settleAll answers unreachable now rest m).interp (env answer now) u =
      (.ok n, t) ∧ Asked answer answers unreachable rest)
    · rintro r rest m u ⟨hloop, hasked⟩ _ hr
      obtain ⟨hunreachable, hview⟩ := hasked r (List.mem_cons_self ..)
      obtain ⟨next, hstep⟩ := settleAll_cons now u rest m hunreachable hview
      rw [hstep] at hloop
      cases hrec : OrderEngine.reconcile r.orderId (answer r.clientOrderId).view?
          (answer r.clientOrderId).reachable now u with
      | error e =>
          rw [hrec] at hloop
          cases hloop
      | ok p =>
          obtain ⟨r₁, r', hl, happly, _, rfl⟩ := reconcile_ok.mp hrec
          cases hr.symm.trans hl.1
          rw [hrec] at hloop
          exact ⟨_, _, ⟨hloop, hasked.rest⟩, turn_put u r r' happly.orderId happly⟩
    · exact ⟨h, hasked⟩
    · exact hn
    · exact hs
  obtain ⟨m, u, ⟨hend, _⟩, hpass⟩ := hpass
  cases hend
  exact hpass

/-- The venue gives each order a venue order id of its own. The development store does not care. -/
def VenueIdsOwn (answer : String → VenueAnswer) (s : RecordStore durable) (rs : List OrderRecord) : Prop :=
  durable = true → ∀ r ∈ rs, ∀ view ∈ (answer r.clientOrderId).view?, ∀ venueId ∈ view.venueOrderId,
    (∀ q ∈ s.rows, q.orderId ≠ r.orderId → q.venueOrderId ≠ some venueId) ∧
      ∀ q ∈ rs, q.orderId ≠ r.orderId →
        ∀ other ∈ (answer q.clientOrderId).view?, other.venueOrderId ≠ some venueId

theorem applies_venueOrderId {r r' : OrderRecord}
    (h : Applies (decisionFor r (answer r.clientOrderId)) now r r') {venueId : String}
    (hv : r'.venueOrderId = some venueId) :
    r.venueOrderId = some venueId ∨
      ∃ view ∈ (answer r.clientOrderId).view?, view.venueOrderId = some venueId := by
  cases h with
  | disputed | unanswered | repeated => exact .inl hv
  | moved target =>
      cases hd : (decisionFor r (answer r.clientOrderId)).venueOrderId with
      | none =>
          left
          simpa [withDecision, hd] using hv
      | some other =>
          right
          have he : other = venueId := by simpa [withDecision, hd] using hv
          subst he
          exact decide_venueOrderId hd

theorem VenueIdsOwn.free {rs : List OrderRecord} (h : VenueIdsOwn answer s rs) {r r' : OrderRecord} (hr : r ∈ rs)
    (hs : s.find? r.orderId = some r) (happly : Applies (decisionFor r (answer r.clientOrderId)) now r r') :
    s.venueIdTaken r' = false := by
  by_cases hd : durable = true
  · by_cases hsame : r'.venueOrderId = r.venueOrderId
    · exact venueIdTaken_of_eq hs happly.orderId hsame
    · cases hv : r'.venueOrderId with
      | none => exact venueIdTaken_of_none hv
      | some venueId =>
          rcases applies_venueOrderId happly hv with he | ⟨view, hview, he⟩
          · exact absurd (hv.trans he.symm) hsame
          · have hfree := (h hd r hr view hview venueId he).1
            have hnone : s.rows.any (fun q => q.orderId ≠ r'.orderId && q.venueOrderId = r'.venueOrderId) = false := by
              rw [List.any_eq_false]
              intro q hq hclash
              have hclash : q.orderId ≠ r'.orderId ∧ q.venueOrderId = r'.venueOrderId := by simpa using hclash
              rw [happly.orderId, hv] at hclash
              exact hfree q hq hclash.1 hclash.2
            simp only [venueIdTaken, hnone, Bool.and_false]
  · simp [venueIdTaken, hd]

theorem VenueIdsOwn.put {r r' : OrderRecord} {rest : List OrderRecord} (h : VenueIdsOwn answer s (r :: rest))
    (hs : s.find? r.orderId = some r) (hr : r.orderId ∉ rest.map OrderRecord.orderId)
    (happly : Applies (decisionFor r (answer r.clientOrderId)) now r r') :
    VenueIdsOwn answer (s.put r') rest := by
  intro hd q hq view hview venueId hv
  obtain ⟨hrows, hothers⟩ := h hd q (List.mem_cons_of_mem r hq) view hview venueId hv
  refine ⟨fun b hb hne => ?_, fun b hb => hothers b (List.mem_cons_of_mem r hb)⟩
  rcases (mem_put s r' b).mp hb with rfl | ⟨hb, _⟩
  · intro hclash
    have hrq : r.orderId ≠ q.orderId := fun he => hr (List.mem_map.mpr ⟨q, hq, he.symm⟩)
    rcases applies_venueOrderId happly hclash with he | ⟨other, hother, he⟩
    · exact hrows r (mem_of_find? hs) hrq he
    · exact hothers r (List.mem_cons_self ..) hrq other hother he
  · exact hrows b hb hne

structure Answerable (answer : String → VenueAnswer) (answers : Answers) (unreachable : List String)
    (s : RecordStore durable) (rs : List OrderRecord) : Prop where
  asked : Asked answer answers unreachable rs
  applicable : ∀ r ∈ rs, readable durable r ∧
    Applicable r (answer r.clientOrderId).view? (answer r.clientOrderId).reachable
  ids : VenueIdsOwn answer s rs

theorem settleAll_completes {answers : Answers} {unreachable : List String} {rs : List OrderRecord}
    {resolved : Nat} (h : Answerable answer answers unreachable s rs) (hn : (rs.map OrderRecord.orderId).Nodup)
    (hs : ∀ r ∈ rs, s.find? r.orderId = some r) :
    ∃ n t, (settleAll answers unreachable now rs resolved).interp (env answer now) s = (.ok n, t) ∧
      Settled answer now rs s t := by
  have hpass : ∃ m u, ((settleAll answers unreachable now rs resolved).interp (env answer now) s =
      (settleAll answers unreachable now [] m).interp (env answer now) u ∧ Answerable answer answers unreachable u []) ∧
      Settled answer now rs s u := by
    apply pass_of_turns (fun rest m u => (settleAll answers unreachable now rs resolved).interp (env answer now) s =
      (settleAll answers unreachable now rest m).interp (env answer now) u ∧
      Answerable answer answers unreachable u rest)
    · rintro r rest m u ⟨hloop, h⟩ hfresh hr
      obtain ⟨hunreachable, hview⟩ := h.asked r (List.mem_cons_self ..)
      obtain ⟨next, hstep⟩ := settleAll_cons now u rest m hunreachable hview
      obtain ⟨hreadable, happlicable⟩ := h.applicable r (List.mem_cons_self ..)
      have hblocked : ¬ Blocked r (decisionFor r (answer r.clientOrderId)) :=
        fun hb => (blocked_decide_iff r _ _).mp hb happlicable
      obtain ⟨r', happly⟩ := exists_applies (not_inert_decide r _ _) hblocked now
      have hfree := h.ids.free (List.mem_cons_self ..) hr happly
      have hrec := reconcile_ok.mpr ⟨r, r', ⟨hr, hreadable⟩, happly, hfree, rfl⟩
      rw [hrec] at hstep
      refine ⟨_, _, ⟨hloop.trans hstep, ?_⟩, turn_put u r r' happly.orderId happly⟩
      exact ⟨h.asked.rest, fun q hq => h.applicable q (List.mem_cons_of_mem r hq), h.ids.put hr hfresh happly⟩
    · exact ⟨rfl, h⟩
    · exact hn
    · exact hs
  obtain ⟨m, u, ⟨hend, _⟩, hpass⟩ := hpass
  exact ⟨m, u, hend, hpass⟩

theorem reset_iff (rs : List OrderRecord) :
    (2 ≤ (((answered answer rs).filter (fun a => a.2.isNone)).map Prod.fst).length ∧
        (((answered answer rs).filter (fun a => a.2.isNone)).map Prod.fst).length = (answered answer rs).length) ↔
      Reset answer rs := by
  have hlength : (answered answer rs).length =
      (rs.filter (fun r => (answer r.clientOrderId).reachable)).length := by simp [answered]
  have hall : (∀ a ∈ answered answer rs, a.2.isNone) ↔
      ∀ r ∈ rs, (answer r.clientOrderId).reachable → (answer r.clientOrderId).isAbsent := by
    simp only [answered, List.forall_mem_map, List.mem_filter, and_imp]
    refine forall_congr' fun r => imp_congr_right fun _ => imp_congr_right fun hreach => ?_
    cases ha : answer r.clientOrderId with
    | view v => simp [VenueAnswer.view?, VenueAnswer.isAbsent]
    | absent => simp [VenueAnswer.view?, VenueAnswer.isAbsent]
    | unreachable message =>
        rw [ha] at hreach
        cases hreach
  rw [List.length_map, List.length_filter_eq_length_iff, hall, Reset, ← hlength]
  constructor
  · rintro ⟨hcount, hsame⟩
    rw [List.filter_eq_self.mpr (hall.mpr hsame)] at hcount
    exact ⟨hcount, hsame⟩
  · rintro ⟨hcount, hsame⟩
    rw [List.filter_eq_self.mpr (hall.mpr hsame)]
    exact ⟨hcount, hsame⟩

theorem recordReset_durable {s : RecordStore true} (answer : String → VenueAnswer) (now : Timestamp)
    (vanished : Nat) (orderIds : List String)
    (h : ∀ orderId ∈ orderIds, (s.find? orderId).isSome) :
    ∃ t, (recordReset vanished now orderIds).interp (env answer now) s = (.ok (), t) ∧
      ∀ orderId r, s.find? orderId = some r → ∃ r', t.find? orderId = some r' ∧ r'.state = r.state ∧
        r'.fills = r.fills ∧ r'.filledQuantity = r.filledQuantity ∧
        r'.averageFillPrice = r.averageFillPrice := by
  induction orderIds generalizing s with
  | nil => exact ⟨s, rfl, fun _ r hr => ⟨r, hr, rfl, rfl, rfl, rfl⟩⟩
  | cons orderId rest ih =>
      obtain ⟨q, hq⟩ := Option.isSome_iff_exists.mp (h orderId (List.mem_cons_self ..))
      have hrec : OrderRepository.recordUnreadable orderId (resetDetail vanished) now s =
          .ok ((), s.put (withUnreadable q (resetDetail vanished) now)) :=
        recordUnreadable_ok.mpr ⟨rfl, q, hq, rfl⟩
      have hkept : ∀ other r, s.find? other = some r →
          ∃ r', (s.put (withUnreadable q (resetDetail vanished) now)).find? other = some r' ∧
            r'.state = r.state ∧ r'.fills = r.fills ∧ r'.filledQuantity = r.filledQuantity ∧
            r'.averageFillPrice = r.averageFillPrice := by
        intro other r hr
        by_cases he : q.orderId = other
        · subst he
          cases hr.symm.trans ((orderId_of_find? hq) ▸ hq)
          exact ⟨_, find?_put_self s (withUnreadable q (resetDetail vanished) now), rfl, rfl, rfl, rfl⟩
        · have hne : (withUnreadable q (resetDetail vanished) now).orderId ≠ other := he
          exact ⟨r, by rw [find?_put_of_ne s hne, hr], rfl, rfl, rfl, rfl⟩
      obtain ⟨t, ht, hsame⟩ := ih (s := s.put (withUnreadable q (resetDetail vanished) now)) (by
        intro other hother
        obtain ⟨r, hr⟩ := Option.isSome_iff_exists.mp (h other (List.mem_cons_of_mem _ hother))
        obtain ⟨r', hr', _⟩ := hkept other r hr
        rw [hr']
        rfl)
      refine ⟨t, ?_, fun other r hr => ?_⟩
      · rw [recordReset, interp_bind_of_ok _ (transact_ok hrec)]
        exact ht
      · obtain ⟨r₁, hr₁, hstate, hfills, hfilled, haverage⟩ := hkept other r hr
        obtain ⟨r₂, hr₂, hstate', hfills', hfilled', haverage'⟩ := hsame other r₁ hr₁
        exact ⟨r₂, hr₂, hstate'.trans hstate, hfills'.trans hfills, hfilled'.trans hfilled,
          haverage'.trans haverage⟩

theorem recordReset_inMemory (answer : String → VenueAnswer) (now : Timestamp) (s : RecordStore false)
    (vanished : Nat) (orderId : String) (rest : List String) :
    ∃ e, (recordReset vanished now (orderId :: rest)).interp (env answer now) s = (.error e, s) := by
  have hrec : OrderRepository.recordUnreadable orderId (resetDetail vanished) now s =
      .error (.keyError s!"No order {orderId}") := rfl
  refine ⟨.order (.keyError s!"No order {orderId}"), ?_⟩
  rw [recordReset]
  exact interp_bind_of_error _ (transact_error hrec)

theorem sweep_eq (answer : String → VenueAnswer) (now : Timestamp) (s : RecordStore durable) :
    sweep answer now s =
      (conclude (candidates s) (answered answer (candidates s)) (unanswered answer (candidates s)) now).interp
        (env answer now) s := by
  have hclock : (perform .utcnow : ServiceM (RecordStore durable) Timestamp).interp (env answer now) s =
      (.ok now, s) := interp_perform ..
  have hscan : (perform (.transact OrderRepository.scanOpen) : ServiceM (RecordStore durable) OpenOrderScan).interp
      (env answer now) s = (.ok s.scan, s) := transact_ok rfl
  unfold sweep reconcileAll
  rw [interp_bind_of_ok _ hclock, interp_bind_of_ok _ hscan]
  exact interp_bind_of_ok _ (queryAll_interp (candidates s) [] [])

theorem prescribed_withNote (decision : ReconciliationDecision) (r : OrderRecord) (detail : String) :
    Prescribed decision r (withNote r detail now) ↔ Prescribed decision r r :=
  ⟨fun h => ⟨h.state, h.filledQuantity, h.averageFillPrice, h.venueOrderId⟩,
    fun h => ⟨h.state, h.filledQuantity, h.averageFillPrice, h.venueOrderId⟩⟩

theorem prescribed_withDiscrepancy (decision : ReconciliationDecision) (r : OrderRecord) (detail : String) :
    Prescribed decision r (withDiscrepancy r detail now) ↔ Prescribed decision r r :=
  ⟨fun h => ⟨h.state, h.filledQuantity, h.averageFillPrice, h.venueOrderId⟩,
    fun h => ⟨h.state, h.filledQuantity, h.averageFillPrice, h.venueOrderId⟩⟩

theorem prescribed_of_applies {decision : ReconciliationDecision} {r r' : OrderRecord}
    (h : Applies decision now r r') (hfilled : decision.filledQuantity = none)
    (hvenue : decision.venueOrderId = none)
    (hstate : decision.action = .recordDiscrepancy ∨ decision.action = .venueUnreachable →
      decision.targetState = none) : Prescribed decision r r' := by
  have hkept : decision.targetState.getD r.state = r.state → Prescribed decision r r := by
    intro ht
    constructor <;> simp [ht, hfilled, hvenue]
  cases h with
  | disputed hd =>
      rw [prescribed_withDiscrepancy]
      exact hkept (by rw [hstate (.inl hd)]; rfl)
  | unanswered hu =>
      rw [prescribed_withNote]
      exact hkept (by rw [hstate (.inr hu)]; rfl)
  | repeated _ _ ht =>
      rw [prescribed_withNote]
      exact hkept (by rw [ht]; rfl)
  | moved target _ _ ht => exact ⟨by rw [ht]; rfl, rfl, rfl, rfl⟩

theorem prescribed_adopt_iff (r : OrderRecord) (view : VenueOrderView) :
    Prescribed (adoptDecision r view) r r ↔ Carries r view := by
  constructor
  · intro h
    refine ⟨h.state, h.filledQuantity, h.averageFillPrice, fun venueId hv => ?_⟩
    rw [h.venueOrderId]
    simp [adoptDecision, Option.mem_def.mp hv]
  · intro h
    refine ⟨h.state, h.filledQuantity, h.averageFillPrice, ?_⟩
    cases hv : view.venueOrderId with
    | none => simp [adoptDecision, hv]
    | some venueId => simpa [adoptDecision, hv] using h.venueOrderId venueId hv

theorem prescribed_self_iff (r : OrderRecord) (a : VenueAnswer) :
    Prescribed (decisionFor r a) r r ↔ AsksNothing r a := by
  cases a with
  | view v =>
      by_cases hc : Contradicts r v
      · obtain ⟨_, hstate, hfilled, hvenue⟩ := decide_view_of_contradicts hc
        refine iff_of_true ?_ (.inl hc)
        change Prescribed (Reconcile.decide r (some v) true) r r
        constructor <;> simp [hstate, hfilled, hvenue]
      · change Prescribed (Reconcile.decide r (some v) true) r r ↔ Contradicts r v ∨ Carries r v
        rw [decide_view_of_not_contradicts hc, prescribed_adopt_iff]
        simp [hc]
  | absent =>
      change Prescribed (Reconcile.decide r none true) r r ↔ absentState r = r.state
      rw [decide_none, absentState]
      split
      · exact ⟨fun h => h.state.symm, fun h => ⟨h.symm, rfl, rfl, rfl⟩⟩
      · exact ⟨fun h => h.state.symm, fun h => ⟨h.symm, rfl, rfl, rfl⟩⟩
  | unreachable message => exact iff_of_true ⟨rfl, rfl, rfl, rfl⟩ trivial

theorem prescribed_iff_takenUp {r r' : OrderRecord} {a : VenueAnswer} (h : Applies (decisionFor r a) now r r') :
    Prescribed (decisionFor r a) r r' ↔ TakenUp r a := by
  cases a with
  | view v =>
      by_cases hc : Contradicts r v
      · obtain ⟨_, hstate, hfilled, hvenue⟩ := decide_view_of_contradicts hc
        refine iff_of_true (prescribed_of_applies h hfilled hvenue fun _ => hstate) ?_
        intro view hv
        cases hv
        exact .inl hc
      · have hadopt : decisionFor r (.view v) = adoptDecision r v := decide_view_of_not_contradicts hc
        have htaken : TakenUp r (.view v) ↔ v.state ≠ r.state ∨ Carries r v := by
          simp [TakenUp, VenueAnswer.view?, hc]
        rw [hadopt] at h ⊢
        rw [htaken]
        cases h with
        | disputed hd => cases hd
        | unanswered hu => cases hu
        | repeated _ _ ht =>
            have hsame : v.state = r.state := by simpa [adoptDecision] using ht
            rw [prescribed_withNote, prescribed_adopt_iff]
            simp [hsame]
        | moved target _ _ ht hne =>
            have he : v.state = target := by simpa [adoptDecision] using ht
            refine iff_of_true ⟨by rw [ht]; rfl, rfl, rfl, rfl⟩ (.inl ?_)
            rw [he]
            exact hne
  | absent =>
      refine iff_of_true ?_ (fun view hv => by cases hv)
      have hdecision : decisionFor r .absent =
          if r.reachedVenue then remainUnknownDecision r else neverSubmittedDecision r := decide_none r
      refine prescribed_of_applies h ?_ ?_ ?_
      · rw [hdecision]
        split <;> rfl
      · rw [hdecision]
        split <;> rfl
      · rw [hdecision]
        split <;> rintro (hd | hu) <;> first | cases hd | cases hu
  | unreachable message =>
      refine iff_of_true ?_ (fun view hv => by cases hv)
      exact prescribed_of_applies h rfl rfl fun _ => rfl

theorem mem_candidates {r : OrderRecord} : r ∈ candidates s ↔ r ∈ unsettled s ∧ readable durable r := by
  simp only [candidates, unsettled, List.mem_filter, mem_scan_records, Bool.and_eq_true, Bool.not_eq_true']
  constructor
  · rintro ⟨⟨hrow, ht, hr⟩, hv, _⟩
    exact ⟨⟨hrow, hv, ht⟩, hr⟩
  · rintro ⟨⟨hrow, hv, ht⟩, hr⟩
    exact ⟨⟨hrow, ht, hr⟩, hv, ht⟩

theorem loads_candidates : ∀ r ∈ candidates s, Loads s r.orderId r := by
  intro r hr
  obtain ⟨hu, hreadable⟩ := mem_candidates.mp hr
  exact ⟨mem_rows_iff.mp (List.mem_filter.mp hu).1, hreadable⟩

theorem nodup_candidates (s : RecordStore durable) : ((candidates s).map OrderRecord.orderId).Nodup :=
  (List.filter_sublist.map OrderRecord.orderId).nodup s.nodup_scan_records

theorem asked_candidates : Asked answer (answered answer (candidates s)) (unanswered answer (candidates s))
    (candidates s) :=
  fun _ hr => ⟨contains_unanswered (nodup_candidates s) hr, lookup_answered (nodup_candidates s) hr⟩

theorem settles_of_reset (h : Reset answer (candidates s)) : Settles answer now s ↔ durable = true := by
  have hreset := (reset_iff (candidates s)).mpr h
  have hknown : ∀ orderId ∈ ((answered answer (candidates s)).filter (fun a => a.2.isNone)).map Prod.fst,
      (s.find? orderId).isSome := by
    simp only [List.mem_map, List.mem_filter, answered]
    rintro _ ⟨_, ⟨⟨r, ⟨hr, _⟩, rfl⟩, _⟩, rfl⟩
    rw [(loads_candidates r hr).1]
    rfl
  have hsweep := sweep_eq answer now s
  rw [conclude, if_pos hreset] at hsweep
  cases durable with
  | true =>
      obtain ⟨t, ht, hsame⟩ := recordReset_durable answer now _ _ hknown
      rw [interp_bind_of_ok _ ht] at hsweep
      exact iff_of_true ⟨_, t, hsweep, fun _ => hsame, fun hn => absurd h hn⟩ rfl
  | false =>
      refine iff_of_false ?_ (by decide)
      rintro ⟨report, t, ht, _⟩
      cases hvanished : ((answered answer (candidates s)).filter (fun a => a.2.isNone)).map Prod.fst with
      | nil =>
          rw [hvanished] at hreset
          exact absurd hreset.1 (by decide)
      | cons orderId rest =>
          rw [hvanished] at hsweep
          obtain ⟨e, he⟩ := recordReset_inMemory answer now s (orderId :: rest).length orderId rest
          rw [interp_bind_of_error _ he, ht] at hsweep
          cases hsweep

theorem unsettled_row {r : OrderRecord} (hr : r ∈ unsettled s) : s.find? r.orderId = some r :=
  mem_rows_iff.mp (List.mem_filter.mp hr).1

theorem not_asked_of_unreadable {r : OrderRecord} (hr : r ∈ unsettled s) (hunreadable : ¬ readable durable r) :
    r.orderId ∉ (candidates s).map OrderRecord.orderId := by
  intro hin
  obtain ⟨q, hq, hid⟩ := List.mem_map.mp hin
  have hrow := unsettled_row hr
  rw [← hid, (loads_candidates q hq).1] at hrow
  cases hrow
  exact hunreadable (mem_candidates.mp hq).2

theorem sweep_of_not_reset (now : Timestamp) (h : ¬ Reset answer (candidates s)) :
    ∃ report : Nat → ReconciliationSweep, sweep answer now s =
      (settleAll (answered answer (candidates s)) (unanswered answer (candidates s)) now (candidates s) 0 >>=
        fun n => pure (report n)).interp (env answer now) s := by
  have hsweep := sweep_eq answer now s
  rw [conclude, if_neg (mt (reset_iff (candidates s)).mp h)] at hsweep
  exact ⟨_, hsweep⟩

theorem settleable_of_settles (h : ¬ Reset answer (candidates s)) (hs : Settles answer now s) {r : OrderRecord}
    (hr : r ∈ unsettled s) : Settleable durable r (answer r.clientOrderId) := by
  obtain ⟨report, t, ht, _, hsettled⟩ := hs
  obtain ⟨report', hsweep⟩ := sweep_of_not_reset now h
  obtain ⟨r', hr', hprescribed⟩ := hsettled h r hr
  cases hloop : (settleAll (answered answer (candidates s)) (unanswered answer (candidates s)) now
      (candidates s) 0).interp (env answer now) s with
  | mk outcome u =>
      cases outcome with
      | error e =>
          rw [interp_bind_of_error _ hloop, ht] at hsweep
          cases hsweep
      | ok n =>
          rw [interp_bind_of_ok _ hloop, ht] at hsweep
          cases hsweep
          obtain ⟨happlied, hframe⟩ := settleAll_settles hloop asked_candidates (nodup_candidates s)
            (fun r hr => (loads_candidates r hr).1)
          unfold Settleable
          by_cases hreadable : readable durable r
          · rw [if_pos hreadable]
            obtain ⟨r₁, hr₁, happly⟩ := happlied r (mem_candidates.mpr ⟨hr, hreadable⟩)
            cases hr'.symm.trans hr₁
            refine ⟨?_, (prescribed_iff_takenUp happly).mp hprescribed⟩
            by_contra hn
            exact not_blocked_of_applies happly ((blocked_decide_iff r _ _).mpr hn)
          · rw [if_neg hreadable]
            rw [hframe r.orderId (not_asked_of_unreadable hr hreadable), unsettled_row hr] at hr'
            cases hr'
            exact (prescribed_self_iff r _).mp hprescribed

theorem settles_of_settleable (hids : VenueIdsOwn answer s (candidates s)) (h : ¬ Reset answer (candidates s))
    (hs : ∀ r ∈ unsettled s, Settleable durable r (answer r.clientOrderId)) : Settles answer now s := by
  have hasked : ∀ r ∈ candidates s, Applicable r (answer r.clientOrderId).view? (answer r.clientOrderId).reachable ∧
      TakenUp r (answer r.clientOrderId) := by
    intro r hr
    obtain ⟨hu, hreadable⟩ := mem_candidates.mp hr
    have hr := hs r hu
    rwa [Settleable, if_pos hreadable] at hr
  have hcompletes : ∃ n t, (settleAll (answered answer (candidates s)) (unanswered answer (candidates s)) now
      (candidates s) 0).interp (env answer now) s = (.ok n, t) ∧ Settled answer now (candidates s) s t :=
    settleAll_completes ⟨asked_candidates, fun r hr => ⟨(loads_candidates r hr).2, (hasked r hr).1⟩, hids⟩
      (nodup_candidates s) (fun r hr => (loads_candidates r hr).1)
  obtain ⟨n, t, hloop, happlied, hframe⟩ := hcompletes
  obtain ⟨report, hsweep⟩ := sweep_of_not_reset now h
  rw [interp_bind_of_ok _ hloop] at hsweep
  refine ⟨report n, t, hsweep, fun hr => absurd hr h, fun _ r hr => ?_⟩
  by_cases hreadable : readable durable r
  · have hin := mem_candidates.mpr ⟨hr, hreadable⟩
    obtain ⟨r', hr', happly⟩ := happlied r hin
    exact ⟨r', hr', (prescribed_iff_takenUp happly).mpr (hasked r hin).2⟩
  · have hasks := hs r hr
    rw [Settleable, if_neg hreadable] at hasks
    refine ⟨r, ?_, (prescribed_self_iff r _).mpr hasks⟩
    rw [hframe r.orderId (not_asked_of_unreadable hr hreadable), unsettled_row hr]

end

def foundFilled (_ : String) : VenueAnswer := .view (exampleView .filled 1 wholeUnit_pos)

end Aetheris.Sweep
