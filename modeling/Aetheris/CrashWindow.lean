import Aetheris.Submission

namespace Aetheris.CrashWindow

open Lib Coroutine Money Clock Enums OrderRecords OrderMachine OrderStore OrderEngine OrderWrites OrderIdentity
open RecordStore TestnetService TestnetWorld Recovery Submission

variable {said : List (OrderRecord × VenueOrderView)} {r : OrderRecord} {now : Timestamp}

theorem readable_of_unexecuted {durable : Bool} (h : Unexecuted r) : readable durable r := by
  have hleverage : r.venueLeverage.all (fun x => decide (0 < x)) := by
    cases hl : r.venueLeverage with
    | none => rfl
    | some l => simpa using h.venueLeverage l hl
  simp [readable, OrderRecord.validates, OrderRecord.fillsAgreeWithFilledQuantity, h.filledQuantity, h.fills,
    hleverage]

theorem recovered_of_sent (h : Young said r) (hs : r.submittedAt.isSome) :
    (recovered now r).isUnreconciled ∨ Said said (recovered now r) := by
  unfold recovered
  cases hterminal : r.isTerminal with
  | true =>
      rw [if_pos rfl]
      exact .inr (h.said_of_terminal hs hterminal)
  | false =>
      have hreached : r.reachedVenue = true := hs
      left
      rw [if_neg (by decide), if_pos (readable_of_unexecuted h.toUnexecuted), interrupted]
      cases hunreconciled : r.isUnreconciled with
      | true => simpa using hunreconciled
      | false =>
          rw [if_neg (by simp [hreached])]
          rfl

theorem recovered_of_unsent (h : Young said r) (hs : r.submittedAt = none) : recovered now r = r := by
  have hunsent : r.reachedVenue = false := by rw [OrderRecord.reachedVenue, hs]; rfl
  unfold recovered
  rw [if_pos (readable_of_unexecuted h.toUnexecuted), interrupted, hunsent]
  simp

theorem not_unreconciled_of_unsent (h : Young said r) (hs : r.submittedAt = none) : r.isUnreconciled = false := by
  rcases h.unsent hs with hr | hr | hr
  · simp [OrderRecord.isUnreconciled, hr]
  · simp [OrderRecord.isUnreconciled, hr]
  · simp [OrderRecord.isUnreconciled, hr]

/-- A record that was handed to the venue is stored with its stamp, and is
terminal only if the venue said so. -/
def Stamped {durable : Bool} (w : World durable) (q : OrderRecord) : Prop :=
  ∃ r, w.orders.find? q.orderId = some r ∧ r.clientOrderId = q.clientOrderId ∧ r.submittedAt.isSome ∧
    (r.isTerminal → Said w.said r)

/-- What a restart makes of the orders that calls of `submit` left behind. -/
structure Restarted (old : RecordStore true) (w : World true) (t : RecordStore true)
    (pending : ReconciliationPending) : Prop where
  sent : ∀ q ∈ w.sent, ∃ r, t.find? q.orderId = some r ∧ (r.isUnreconciled ∨ Said w.said r) ∧
    (r.isUnreconciled → 0 < pending.count)
  unsent : ∀ orderId r, w.orders.find? orderId = some r → old.find? orderId = none → r.submittedAt = none →
    (∀ q ∈ w.sent, q.orderId ≠ orderId) ∧ t.find? orderId = some r ∧ orderId ∉ blockers t.scan
  counted : pending.count = (blockers t.scan).length

/-- Wherever the calls stop, what may be at the venue is known to be uncertain
after a restart, and what was never sent is not. -/
def SurvivesCrash (old : RecordStore true) (w : World true) (now : Timestamp) : Prop :=
  (∀ q ∈ w.sent, Stamped w q) ∧
    ∃ report t pending, recover now w.orders = .ok (report, t) ∧ reconciliationPending t = .ok (pending, t) ∧
      Restarted old w t pending

section

variable [Runtime]

/-- Stores that calls of the engine and of `submit` can leave behind. -/
inductive Deployed : RecordStore true → Prop
  | empty : Deployed empty
  | operated {s} (op : Operation) : Deployed s → Deployed (Transaction.attempt OrderWrites.perform s op)
  | submitted {s w pool} : Deployed s → Reachable exec Submits ⟨s, [], []⟩ (w, pool) → Deployed w.orders

theorem Deployed.underway {s : RecordStore true} (h : Deployed s) :
    ∀ orderId r, s.find? orderId = some r → Underway r := by
  induction h with
  | empty => exact fun _ _ hr => nomatch hr
  | operated op _ ih => exact attempt_underway op ih
  | submitted _ hw ih =>
      intro orderId r hr
      rcases (submits_inv hw).rows orderId r hr with hold | hy
      · exact ih orderId r hold
      · exact hy.underway

theorem crash_window_consistent (old : RecordStore true) (w : World true)
    (pool : List (ServiceM (RecordStore true) TestnetOrderResult)) (hold : Deployed old)
    (h : Reachable exec Submits ⟨old, [], []⟩ (w, pool)) (now : Timestamp) : SurvivesCrash old w now := by
  have hinv := submits_inv h
  refine ⟨fun q hq => ?_, ?_⟩
  · obtain ⟨r, hr, hc, hy, hs⟩ := hinv.sent q hq
    exact ⟨r, hr, hc, hs, hy.said_of_terminal hs⟩
  · obtain ⟨report, t, hrecover, hrecovered⟩ := recover_recovers now w.orders (hold.submitted h).underway
    obtain ⟨pending, hpending, hcount⟩ := reconciliationPending_counts t
    refine ⟨report, t, pending, hrecover, hpending, ?_, ?_, hcount⟩
    · intro q hq
      obtain ⟨r, hr, _, hy, hs⟩ := hinv.sent q hq
      have hafter := hrecovered q.orderId r hr
      refine ⟨recovered now r, hafter, recovered_of_sent hy hs, fun hu => ?_⟩
      have hid := orderId_of_find? hafter
      rw [← hid] at hafter
      rw [hcount]
      exact List.length_pos_of_mem (mem_blockers_of_unreconciled hafter hu)
    · intro orderId r hr hnew hs
      rcases hinv.rows orderId r hr with hold | hy
      · rw [hnew] at hold
        cases hold
      · have hafter := hrecovered orderId r hr
        rw [recovered_of_unsent hy hs] at hafter
        cases orderId_of_find? hr
        refine ⟨fun q hq he => ?_, hafter, ?_⟩
        · obtain ⟨b, hb, _, _, hbs⟩ := hinv.sent q hq
          rw [he, hr] at hb
          cases hb
          rw [hs] at hbs
          cases hbs
        · exact not_mem_blockers hafter (not_unreconciled_of_unsent hy hs) (readable_of_unexecuted hy.toUnexecuted)

end

theorem crash_window_consistent_unanswered :
    ∃ w : World true, w.sent.length = 1 ∧ SurvivesCrash empty w 20 := by
  obtain ⟨pool, h⟩ := afterSubmit_reachable (.error (.exchange "timeout")) ⟨[], .refl⟩
  exact ⟨_, by decide +kernel, @crash_window_consistent referenceRuntime _ _ _ (@Deployed.empty referenceRuntime) h 20⟩

end Aetheris.CrashWindow
