import Aetheris.OrderHistory

namespace Aetheris.OrderEvidence

open Lib Clock Enums OrderRecords OrderMachine OrderStore OrderEngine OrderCalls OrderWrites RecordStore
open OrderIdentity OrderHistory Transaction

/-- The call brings word of where the order ended, and the record ends there. -/
def Vouched : Operation → OrderRecord → Prop
  | .applyVenueAck _ _ state _, r => r.state = state
  | .applyFill .., r => r.filledQuantity = r.intent.quantity
  | .reconcile _ (some view) true _, r => r.state = view.state
  | .resolveManually _ toState _ _ _, r => r.state = toState
  | _, _ => False

def silent : Operation → Bool
  | .markRiskRejected .. | .cancelBeforeSubmission .. | .markUnknown .. | .beginReconciliation ..
  | .recover .. | .reconcile _ none _ _ | .reconcile _ _ false _ => true
  | _ => false

/-- The state a call imposes without asking whether the order was sent. -/
def imposed? : Operation → Option OrderState
  | .markRiskRejected .. => some .rejected
  | .applyReconciliation _ decision _ =>
      if decision.action = .recordDiscrepancy ∨ decision.action = .venueUnreachable then none
      else decision.targetState
  | _ => none

/-- No call imposes a final state on a sent order that could take it. -/
def SparesSent (op : Operation) (r : OrderRecord) : Prop :=
  ∀ target ∈ imposed? op, ¬ (r.reachedVenue ∧ target.isTerminal ∧ canTransition r.state target)

instance (op : Operation) (r : OrderRecord) : Decidable (SparesSent op r) :=
  inferInstanceAs (Decidable (∀ target ∈ imposed? op, ¬ (_ ∧ _ ∧ _)))

theorem applies_reachedVenue {decision : ReconciliationDecision} {now : Timestamp} {r r' : OrderRecord}
    (h : Applies decision now r r') : r'.reachedVenue = r.reachedVenue := by
  cases h <;> rfl

theorem write_reachedVenue {op : Operation} {r r' : OrderRecord} (h : Write op r r') (hr : r.reachedVenue) :
    r'.reachedVenue := by
  cases h with
  | validating | riskRejected | cancelled | acknowledged | unknown | overfilled | filled | attempted
  | reopened | resolved | interrupted | damaged => exact hr
  | submitting => rfl
  | reconciled happly | applied happly => rw [applies_reachedVenue happly]; exact hr

theorem reconciled_vouched {r r' : OrderRecord} {venueView : Option VenueOrderView} {venueReachable : Bool}
    {now : Timestamp} (h : Applies (Reconcile.decide r venueView venueReachable) now r r')
    (hsent : r.reachedVenue) (hopen : r.isTerminal = false) (hterminal : r'.isTerminal) :
    Vouched (.reconcile r.orderId venueView venueReachable now) r' := by
  cases h with
  | disputed | unanswered | repeated => exact absurd hterminal (by rw [Bool.not_eq_true]; exact hopen)
  | moved target hrecord hunreachable htarget hne hc =>
      cases venueReachable with
      | false => exact absurd rfl hunreachable
      | true =>
          cases venueView with
          | none =>
              rw [Reconcile.decide_none, if_pos hsent] at htarget
              cases htarget
              cases hterminal
          | some view =>
              by_cases hcon : Reconcile.Contradicts r view
              · exact absurd (Reconcile.decide_view_of_contradicts hcon).1 hrecord
              · rw [Reconcile.decide_view_of_not_contradicts hcon] at htarget
                cases htarget
                rfl

theorem write_vouched {op : Operation} {r r' : OrderRecord} (h : Write op r r') (hg : SparesSent op r)
    (hsent : r.reachedVenue) (hopen : r.isTerminal = false) (hterminal : r'.isTerminal) : Vouched op r' := by
  have hsame : r'.state ≠ r.state := by
    intro he
    rw [OrderRecord.isTerminal, he] at hterminal
    rw [OrderRecord.isTerminal, hterminal] at hopen
    cases hopen
  cases h with
  | validating | submitting | unknown | attempted | reopened | interrupted => cases hterminal
  | overfilled | damaged => exact absurd rfl hsame
  | riskRejected hc => exact absurd ⟨hsent, rfl, hc⟩ (hg _ rfl)
  | cancelled hunsent => rw [hsent] at hunsent; cases hunsent
  | acknowledged | resolved => rfl
  | @filled _ fill now hle hc =>
      by_contra hne
      have htarget : (withFill r fill now).state = .partiallyFilled := if_neg hne
      rw [OrderRecord.isTerminal, htarget] at hterminal
      cases hterminal
  | reconciled happly => exact reconciled_vouched happly hsent hopen hterminal
  | applied happly =>
      cases happly with
      | disputed | unanswered | repeated => exact absurd rfl hsame
      | moved target hrecord hunreachable htarget hne hc =>
          exact absurd ⟨hsent, hterminal, hc⟩ (hg target (by simp [imposed?, hrecord, hunreachable, htarget]))

theorem vouched_of_annotated {op : Operation} {r r' : OrderRecord} (h : Annotated r r') (hr : Vouched op r) :
    Vouched op r' := by
  obtain ⟨_, _, _, _, rfl⟩ := h
  unfold Vouched at hr ⊢
  split at hr <;> exact hr

theorem sparesSent_write {op : Operation} {r r' : OrderRecord} (h : Write op r r') (hg : SparesSent op r) :
    SparesSent op r' := by
  cases h with
  | validating | cancelled | submitting | acknowledged | unknown | overfilled | filled | attempted
  | reopened | resolved | interrupted | damaged | reconciled => exact fun _ ht => nomatch ht
  | riskRejected =>
      rintro target ht ⟨_, _, hc⟩
      cases ht
      cases hc
  | applied happly =>
      cases happly with
      | disputed hd => exact fun _ ht => by simp [imposed?, hd] at ht
      | unanswered hu => exact fun _ ht => by simp [imposed?, hu] at ht
      | repeated => exact hg
      | moved target hrecord hunreachable htarget hne hc =>
          rintro target' ht ⟨_, hterminal, hc'⟩
          have he : target = target' := by simpa [imposed?, hrecord, hunreachable, htarget] using ht
          subst he
          change canTransition target target at hc'
          rw [not_canTransition_of_terminal hterminal] at hc'
          cases hc'

theorem not_vouched_of_silent {op : Operation} (h : silent op) (r : OrderRecord) : ¬ Vouched op r := by
  intro hv
  cases op with
  | reconcile _ venueView venueReachable _ =>
      cases venueView <;> cases venueReachable <;> first | exact False.elim hv | cases h
  | _ => first | exact False.elim hv | cases h

theorem silent_builds {op : Operation} (h : silent op) : op.builds = none := by
  cases op <;> first | rfl | cases h

section

variable [Runtime] {durable : Bool} {s t : RecordStore durable} {op : Operation}

theorem writes_vouched (h : Writes op s t) (hb : op.builds = none) (hg : ∀ r ∈ met s op, SparesSent op r)
    {orderId : String} {r : OrderRecord} (hr : s.find? orderId = some r) (hsent : r.reachedVenue)
    (hopen : r.isTerminal = false) :
    ∃ r', t.find? orderId = some r' ∧ r'.reachedVenue ∧ (r'.isTerminal → Vouched op r') := by
  refine (h.preserves (J := fun u => (∃ q, u.find? orderId = some q ∧ q.reachedVenue ∧
    (q.isTerminal → Vouched op q)) ∧ ∀ r ∈ met u op, SparesSent op r) ?_ ?_ ⟨⟨r, hr, hsent, ?_⟩, hg⟩).1
  · intro u id intent _ hbuild
    rw [hb] at hbuild
    cases hbuild
  · rintro u b b' ⟨⟨q, hq, hqsent, hqvouched⟩, hg⟩ hfind hw
    have hspares : SparesSent op b := by
      rcases hw.target with ht | ht
      · exact hg b (met_of_target ht hfind)
      · cases op <;> first | (cases ht; done) | exact fun _ hi => nomatch hi
    constructor
    · by_cases hid : b.orderId = orderId
      · subst hid
        cases hfind.symm.trans hq
        refine ⟨b', by rw [← hw.orderId, find?_put_self], write_reachedVenue hw hqsent, fun hterminal => ?_⟩
        cases hbopen : b.isTerminal with
        | false => exact write_vouched hw hspares hqsent hbopen hterminal
        | true => exact vouched_of_annotated (write_annotated hw hbopen) (hqvouched hbopen)
      · have hne : b'.orderId ≠ orderId := by rw [hw.orderId]; exact hid
        exact ⟨q, by rw [find?_put_of_ne u hne, hq], hqsent, hqvouched⟩
    · intro c hc
      rcases hw.target with ht | ht
      · rw [met_of_target (by rw [ht, hw.orderId]) (find?_put_self u b')] at hc
        cases hc
        exact sparesSent_write hw hspares
      · rw [met, ht] at hc
        cases hc
  · intro hterminal
    rw [hopen] at hterminal
    cases hterminal

theorem writes_of_builds (h : Writes op s t) (hb : op.builds ≠ none) {orderId : String} {r : OrderRecord}
    (hr : t.find? orderId = some r) (hterminal : r.isTerminal) : s.find? orderId = some r := by
  cases h with
  | done => exact hr
  | @built _ id intent _ _ _ =>
      rw [find?_put] at hr
      split at hr
      · cases hr
        cases hterminal
      · exact hr
  | written _ hw =>
      refine absurd ?_ hb
      cases hw <;> rfl

theorem attempt_vouched (hg : ∀ r ∈ met s op, SparesSent op r) {orderId : String} {r r' : OrderRecord}
    (hr : s.find? orderId = some r) (hsent : r.reachedVenue) (hopen : r.isTerminal = false)
    (hr' : (attempt perform s op).find? orderId = some r') (hterminal : r'.isTerminal) : Vouched op r' := by
  have hsame : s.find? orderId ≠ some r' := by
    intro he
    cases hr.symm.trans he
    rw [hopen] at hterminal
    cases hterminal
  rcases attempt_cases perform s op with ⟨t, ht, he⟩ | he
  · rw [he] at hr'
    by_cases hb : op.builds = none
    · obtain ⟨q, hq, _, hv⟩ := writes_vouched (perform_writes ht) hb hg hr hsent hopen
      cases hq.symm.trans hr'
      exact hv hterminal
    · exact absurd (writes_of_builds (perform_writes ht) hb hr' hterminal) hsame
  · rw [he] at hr'
    exact absurd hr' hsame

theorem run_silent {ops : List Operation}
    (h : Along perform (fun s op => ∀ r ∈ met s op, SparesSent op r) s ops) (hsilent : ∀ op ∈ ops, silent op)
    {orderId : String} {r : OrderRecord} (hr : s.find? orderId = some r) (hsent : r.reachedVenue)
    (hopen : r.isTerminal = false) :
    ∃ r', (run perform s ops).find? orderId = some r' ∧ r'.reachedVenue ∧ r'.isTerminal = false := by
  induction ops generalizing s r with
  | nil => exact ⟨r, hr, hsent, hopen⟩
  | cons op ops ih =>
      have hop := hsilent op (List.mem_cons_self ..)
      have hrest : ∀ op ∈ ops, silent op := fun op h => hsilent op (List.mem_cons_of_mem _ h)
      obtain ⟨q, hq, hqsent, hqopen⟩ : ∃ q, (attempt perform s op).find? orderId = some q ∧
          q.reachedVenue ∧ q.isTerminal = false := by
        rcases attempt_cases perform s op with ⟨t, ht, he⟩ | he
        · obtain ⟨q, hq, hqsent, hv⟩ :=
            writes_vouched (perform_writes ht) (silent_builds hop) h.1 hr hsent hopen
          refine ⟨q, by rw [he, hq], hqsent, ?_⟩
          rw [← Bool.not_eq_true]
          exact fun hterminal => not_vouched_of_silent hop q (hv hterminal)
        · exact ⟨r, by rw [he, hr], hsent, hopen⟩
      exact ih h.2 hrest hq hqsent hqopen

/-- A sent order ends only where the venue, its fills or an operator say it
ended, and calls that bring no answer never end it. -/
theorem sent_order_settled_by_evidence (s : RecordStore durable) (ops : List Operation)
    (h : Along perform (fun s op => ∀ r ∈ met s op, SparesSent op r) s ops) :
    (∀ before op after, ops = before ++ op :: after → ∀ orderId r r',
        (run perform s before).find? orderId = some r → r.reachedVenue → r.isTerminal = false →
        (run perform s (before ++ [op])).find? orderId = some r' → r'.isTerminal → Vouched op r') ∧
      ((∀ op ∈ ops, silent op) → ∀ orderId r, s.find? orderId = some r → r.reachedVenue →
        r.isTerminal = false →
        ∃ r', (run perform s ops).find? orderId = some r' ∧ r'.reachedVenue ∧ r'.isTerminal = false) := by
  constructor
  · rintro before op after rfl orderId r r' hr hsent hopen hr' hterminal
    rw [run_append] at hr'
    exact attempt_vouched (Along.at h) hr hsent hopen hr' hterminal
  · intro hsilent orderId r hr hsent hopen
    exact run_silent h hsilent hr hsent hopen

end

theorem sent_order_settled_by_evidence_completedRun :
    (∀ before op after, completedRun = before ++ op :: after → ∀ orderId r r',
        (run examplePerform empty before).find? orderId = some r → r.reachedVenue → r.isTerminal = false →
        (run examplePerform empty (before ++ [op])).find? orderId = some r' → r'.isTerminal → Vouched op r') ∧
      ((∀ op ∈ completedRun, silent op) → ∀ orderId r, (empty : RecordStore true).find? orderId = some r →
        r.reachedVenue → r.isTerminal = false →
        ∃ r', (run examplePerform empty completedRun).find? orderId = some r' ∧ r'.reachedVenue ∧
          r'.isTerminal = false) :=
  @sent_order_settled_by_evidence referenceRuntime true empty completedRun (by decide +kernel)

/-- The venue may hold the order, and a late refusal of the risk gate ends it. -/
theorem markRiskRejected_ends_sent_order :
    ∃ r r', (run examplePerform empty exampleSubmission).find? "order-1" = some r ∧ r.reachedVenue ∧
      r.isTerminal = false ∧
      (run examplePerform empty
        (exampleSubmission ++ [.markRiskRejected "order-1" .staleData "late" 3])).find? "order-1" = some r' ∧
      r'.isTerminal := by
  refine ⟨_, _, rfl, rfl, rfl, rfl, rfl⟩

end Aetheris.OrderEvidence
