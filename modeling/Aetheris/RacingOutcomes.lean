import Aetheris.RacingRuns
import Aetheris.Sweep

namespace Aetheris.RacingOutcomes

open Lib Coroutine Protocol Clock Enums OrderRecords OrderMachine OrderStore OrderEngine OrderCalls OrderIdentity
open OrderWrites RecordStore Settlement TestnetService VenueHistory TrackedRecords RacingCalls RacingRuns Sweep

variable {durable : Bool} {venueId : String ↪ String} {α : Type}

abbrev Pool (durable : Bool) := List (ServiceM (RecordStore durable) Unit)

/-- What the venue says of its orders if it is asked now. -/
def latest (venue : Venue venueId) (clientOrderId : String) : VenueAnswer :=
  match venue clientOrderId with
  | some placed => .view placed.latest
  | none => .absent

section

variable {venue : Venue venueId} {clientOrderId : String} {view : VenueOrderView}

theorem reachable_latest : (latest venue clientOrderId).reachable = true := by
  unfold latest
  split <;> rfl

theorem mem_latest_view : view ∈ (latest venue clientOrderId).view? ↔
    ∃ placed, venue clientOrderId = some placed ∧ placed.latest = view := by
  unfold latest
  split
  · rename_i placed hp
    simp [VenueAnswer.view?, hp]
  · rename_i hn
    simp [VenueAnswer.view?, hn]

theorem latest_of_placed {placed : Placed (venueId clientOrderId)} (hp : venue clientOrderId = some placed) :
    latest venue clientOrderId = .view placed.latest := by
  unfold latest
  rw [hp]

end

section Sweep

variable {w : RacingWorld durable venueId} {now : Timestamp}

theorem told_latest (w : RacingWorld durable venueId) (clientOrderId : String) :
    Told (w.venue clientOrderId) (latest w.venue clientOrderId).view? true := by
  unfold latest
  split
  · rename_i placed hp
    exact ⟨placed, hp, mem_latest placed⟩
  · assumption

theorem venueIdsOwn_latest (h : Agrees w) : VenueIdsOwn (latest w.venue) w.orders (candidates w.orders) := by
  intro _ r hr view hview vid hvid
  obtain ⟨placed, hp, rfl⟩ := mem_latest_view.mp hview
  have hrow : w.orders.find? r.orderId = some r := (loads_candidates r hr).1
  have hnamed : venueId r.clientOrderId = vid :=
    Option.some.inj ((placed.credible _ (mem_latest placed)).venueOrderId.symm.trans hvid)
  have hsame : ∀ {q : OrderRecord}, w.orders.find? q.orderId = some q → vid = venueId q.clientOrderId →
      q.orderId = r.orderId := by
    intro q hq he
    have hclient : q.clientOrderId = r.clientOrderId := (venueId.injective (hnamed.trans he)).symm
    exact h.clients _ _ q r hq hrow hclient
  refine ⟨fun q hq hne hclash => ?_, fun q hq hne other hother hclash => ?_⟩
  · have hrowq := mem_rows_iff.mp hq
    exact hne (hsame hrowq ((h.rows _ q hrowq).named hclash).1)
  · obtain ⟨placed', _, rfl⟩ := mem_latest_view.mp hother
    have hq' := (placed'.credible _ (mem_latest placed')).venueOrderId
    exact hne (hsame (loads_candidates q hq).1 (Option.some.inj (hclash.symm.trans hq')))

theorem settles_latest (h : Agrees w) (now : Timestamp) :
    ∃ n t, (settleAll (answered (latest w.venue) (candidates w.orders)) (unanswered (latest w.venue)
        (candidates w.orders)) now (candidates w.orders) 0).interp (env (latest w.venue) now) w.orders = (.ok n, t) ∧
      Settled (latest w.venue) now (candidates w.orders) w.orders t := by
  refine settleAll_completes ⟨asked_candidates, fun r hr => ?_, venueIdsOwn_latest h⟩ (nodup_candidates w.orders)
    fun r hr => (loads_candidates r hr).1
  obtain ⟨hrow, hreadable⟩ := loads_candidates r hr
  have hsent : r.submittedAt.isSome :=
    ((Bool.and_eq_true _ _).mp (List.mem_filter.mp (mem_candidates.mp hr).1).2).1
  rw [reachable_latest]
  exact ⟨hreadable, (h.rows _ r hrow).applicable hsent (told_latest w r.clientOrderId)⟩

theorem recordReset_frame {s : RecordStore durable} (answer : String → VenueAnswer) (vanished : Nat)
    {orderIds : List String} {other : String} (h : other ∉ orderIds) :
    ((recordReset vanished now orderIds).interp (env answer now) s).2.find? other = s.find? other := by
  induction orderIds generalizing s with
  | nil => rfl
  | cons orderId rest ih =>
      obtain ⟨hne, hrest⟩ := not_or.mp (mt List.mem_cons.mpr h)
      unfold recordReset
      cases hs : OrderRepository.recordUnreadable orderId (resetDetail vanished) now s with
      | error e =>
          rw [interp_bind_of_error _ (transact_error hs)]
      | ok p =>
          obtain ⟨_, r, hr, rfl⟩ := recordUnreadable_ok.mp hs
          rw [interp_bind_of_ok _ (transact_ok hs), ih hrest]
          have hput : (withUnreadable r (resetDetail vanished) now).orderId ≠ other :=
            fun he => hne (he.symm.trans (orderId_of_find? (r := r) hr))
          exact find?_put_of_ne s hput

theorem mem_candidates_of_open (h : Agrees w) {orderId : String} {r : OrderRecord}
    (hr : w.orders.find? orderId = some r) (hs : r.submittedAt.isSome) (hopen : r.isTerminal = false) :
    r ∈ candidates w.orders := by
  refine mem_candidates.mpr ⟨List.mem_filter.mpr ⟨mem_of_find? hr, ?_⟩, (h.rows orderId r hr).readable⟩
  rw [OrderRecord.reachedVenue, hs, hopen]
  rfl

theorem sweep_frame (h : Agrees w) (now : Timestamp) {orderId : String} {r : OrderRecord}
    (hr : w.orders.find? orderId = some r) (hterminal : r.isTerminal) :
    (sweep (latest w.venue) now w.orders).2.find? orderId = some r := by
  have hout : r.orderId ∉ (candidates w.orders).map OrderRecord.orderId := by
    intro hin
    obtain ⟨q, hq, hid⟩ := List.mem_map.mp hin
    have hrow := (loads_candidates q hq).1
    rw [hid, orderId_of_find? hr, hr] at hrow
    cases hrow
    have hopen := ((Bool.and_eq_true _ _).mp (List.mem_filter.mp (mem_candidates.mp hq).1).2).2
    rw [hterminal] at hopen
    cases hopen
  have hid := orderId_of_find? hr
  rw [hid] at hout
  by_cases hreset : Reset (latest w.venue) (candidates w.orders)
  · rw [sweep_eq, conclude, if_pos ((reset_iff (candidates w.orders)).mpr hreset)]
    rw [interp_returns, recordReset_frame, hr]
    intro hin
    obtain ⟨a, ha, hid'⟩ := List.mem_map.mp hin
    obtain ⟨q, hq, rfl⟩ := List.mem_map.mp (List.mem_filter.mp ha).1
    exact hout (List.mem_map.mpr ⟨q, (List.mem_filter.mp hq).1, hid'⟩)
  · obtain ⟨report, hsweep⟩ := sweep_of_not_reset now hreset
    obtain ⟨n, t, hloop, _, hframe⟩ := settles_latest h now
    rw [interp_bind_of_ok _ hloop] at hsweep
    rw [hsweep]
    exact (hframe orderId hout).trans hr

theorem sweep_placed (h : Agrees w) (now : Timestamp) {orderId : String} {r : OrderRecord}
    {placed : Placed (venueId r.clientOrderId)} (hr : w.orders.find? orderId = some r)
    (hp : w.venue r.clientOrderId = some placed) :
    ∃ r', (sweep (latest w.venue) now w.orders).2.find? orderId = some r' ∧ r'.state = placed.latest.state ∧
      (Carries r' placed.latest ↔ CaughtUp r placed.latest) := by
  have htracks := h.rows orderId r hr
  rw [hp] at htracks
  cases hterminal : r.isTerminal with
  | true =>
      have hcarries := htracks.carries_of_terminal hterminal
      exact ⟨r, sweep_frame h now hr hterminal, hcarries.state,
        iff_of_true hcarries fun _ => hcarries.filledQuantity⟩
  | false =>
      have hin := mem_candidates_of_open h hr htracks.standing.1 hterminal
      have hreset : ¬ Reset (latest w.venue) (candidates w.orders) := by
        intro hreset
        have habsent := hreset.2 r hin reachable_latest
        rw [latest_of_placed hp] at habsent
        cases habsent
      obtain ⟨report, hsweep⟩ := sweep_of_not_reset now hreset
      obtain ⟨n, t, hloop, happlied, _⟩ := settles_latest h now
      rw [interp_bind_of_ok _ hloop] at hsweep
      obtain ⟨r', hr', happly⟩ := happlied r hin
      rw [latest_of_placed hp] at happly
      rw [hsweep]
      exact ⟨r', orderId_of_find? hr ▸ hr', htracks.settled hterminal happly⟩

theorem sweep_returns {w : RacingWorld true venueId} (h : Agrees w) (now : Timestamp) :
    ∃ report, (sweep (latest w.venue) now w.orders).1 = .ok report := by
  by_cases hreset : Reset (latest w.venue) (candidates w.orders)
  · obtain ⟨report, t, hsweep, _⟩ := (settles_of_reset hreset : Settles _ now _ ↔ _).mpr rfl
    exact ⟨report, by rw [hsweep]⟩
  · obtain ⟨report, hsweep⟩ := sweep_of_not_reset now hreset
    obtain ⟨n, t, hloop, _⟩ := settles_latest h now
    rw [interp_bind_of_ok _ hloop] at hsweep
    exact ⟨report n, by rw [hsweep]; rfl⟩

end Sweep

theorem not_lands_of_asks {f : Effect (RecordStore durable) α} {orderId : String} {landing : Landing} (hf : Asks f) :
    ¬ Lands f orderId landing := by
  rintro h
  cases h <;> exact hf

section Handed

def handedDraft : OrderRecord := @build referenceRuntime "order-1" exampleIntent

def handedRecord : OrderRecord := withMove handedDraft .submitted 2 (some 2)

/-- One order on record as sent, and handed over. -/
def handedWorld : RacingWorld true (.refl String) where
  orders := (empty.put handedDraft).put handedRecord
  sent := [handedRecord]

theorem wholeUnit_nonneg : (0 : Money.Decimal) ≤ 1 := wholeUnit_pos.le

theorem halfUnit_nonneg : (0 : Money.Decimal) ≤ 1 / 2 := halfUnit_pos.le

def handedView (clientOrderId : String) (state : OrderState) (quantity : Money.Decimal) (h : 0 ≤ quantity) :
    VenueOrderView where
  clientOrderId := clientOrderId
  venueOrderId := some clientOrderId
  state := state
  filledQuantity := quantity
  averageFillPrice := some 100
  observedAt := 4
  filledQuantity_nonneg := h

/-- Filled in two executions. -/
def handedPlaced (clientOrderId : String) : Placed clientOrderId where
  quantity := 1
  latest := handedView clientOrderId .filled 1 wholeUnit_nonneg
  earlier := [handedView clientOrderId .partiallyFilled (1 / 2) halfUnit_nonneg]
  credible := by
    intro view hview
    simp only [List.mem_cons, List.not_mem_nil, or_false] at hview
    rcases hview with rfl | rfl
    · exact ⟨rfl, by change OrderState.filled ∈ venueStates; decide, le_rfl, (fun h => nomatch h), (fun h => nomatch h),
        by simp [handedView]⟩
    · exact ⟨rfl, by change OrderState.partiallyFilled ∈ venueStates; decide, by norm_num [handedView],
        (fun h => nomatch h), fun _ => halfUnit_pos, by simp [handedView]⟩
  monotone := List.pairwise_pair.mpr ⟨.inr rfl, by norm_num [handedView], (fun h => nomatch h), fun _ => rfl⟩

def handedVenue : Venue (.refl String) :=
  fun clientOrderId => if clientOrderId = handedRecord.clientOrderId then some (handedPlaced clientOrderId) else none

theorem agrees_empty : Agrees (emptyWorld : RacingWorld durable venueId) := by
  refine ⟨fun _ _ hr => ?_, fun _ _ _ _ hr => ?_, fun _ hq => absurd hq List.not_mem_nil, fun _ _ hp => nomatch hp⟩
  · cases hr
  · cases hr

theorem agrees_handed : Agrees handedWorld := by
  have hdrafted := (@preserves_create true (.refl String) (some handedDraft) emptyWorld referenceRuntime agrees_empty
    "order-1" exampleIntent rfl rfl).agrees
  have htracks : Tracks _ (withMove handedDraft .submitted 2 (some 2)) :=
    (hdrafted.rows "order-1" handedDraft rfl).submitting rfl
  have hsucc : Succeeds handedDraft handedRecord := ⟨rfl, rfl, le_rfl, fun hs => nomatch hs⟩
  have hstamped := (preserves_put hdrafted rfl htracks hsucc (.inr rfl)).agrees
  have hpreserves : Preserves none _ _ :=
    preserves_receive hstamped rfl (.refl handedRecord) rfl (.error (.exchange "no answer"))
  exact hpreserves.agrees

/-- The venue took the order and filled it before a sweep has asked for anything. -/
def handedRun : RacingWorld true (.refl String) × Pool true :=
  ({ handedWorld with venue := handedVenue },
    [Coroutine.bind (do
      let scan ← perform (.transact OrderRepository.scanOpen)
      let candidates := scan.records.filter (fun r => r.reachedVenue && !r.isTerminal)
      let (answers, unreachable) ← queryAll candidates [] []
      conclude candidates answers unreachable 5) fun _ => pure ()])

theorem reachable_handedRun :
    Reachable (@orderly true (.refl String) referenceRuntime) (@Calls true referenceRuntime) handedWorld handedRun := by
  have hstart : Relation.ReflTransGen (Step (@orderly true (.refl String) referenceRuntime) (@Calls true referenceRuntime))
      (handedWorld, []) (handedWorld, [@Call.body true referenceRuntime .reconcileAll]) :=
    .single (.start ⟨.reconcileAll, rfl⟩)
  have hages : Ages handedWorld.sent handedWorld.venue handedVenue := by
    refine ⟨(fun _ _ hp => nomatch hp), fun clientOrderId placed _ hp => ?_⟩
    unfold handedVenue at hp
    split at hp
    · rename_i he
      cases hp
      exact ⟨handedRecord, List.mem_singleton_self _, he.symm, rfl⟩
    · cases hp
  have horderly : Orderly (.utcnow : Effect (RecordStore true) Timestamp) handedWorld (.ok 5) handedRun.1 := by
    refine ⟨fun _ _ hl => absurd hl (not_lands_of_asks trivial), trivial, fun orderId r hr _ _ hunknown => ?_⟩
    have hrow : r ∈ handedWorld.orders.rows := mem_of_find? hr
    have hall : ∀ r ∈ handedWorld.orders.rows, r.state ≠ .unknown := by decide
    exact hall r hrow hunknown
  have hexec : @orderly true (.refl String) referenceRuntime _ .utcnow handedWorld (.ok 5) handedRun.1 :=
    ⟨⟨rfl, hages, trivial⟩, horderly⟩
  refine hstart.tail ?_
  change Step _ _ (handedWorld, [] ++ Coroutine.await _ _ :: []) (handedRun.1, [] ++ _ :: [])
  exact .advance hexec

end Handed

section

variable [Runtime] {start : RacingWorld durable venueId} {before after : RacingWorld durable venueId × Pool durable}

theorem reachable_agrees (h : Agrees start) (hreach : Reachable orderly Calls start after) :
    Agrees after.1 ∧ (protocol : Protocol (RacingWorld durable venueId) _).Delivers orderly Harmless after.1 after.2 :=
  reachable_delivers (fun _ => calls_begin) h hreach

end

end Aetheris.RacingOutcomes
