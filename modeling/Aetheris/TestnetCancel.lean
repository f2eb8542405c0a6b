import Aetheris.OrderWrites
import Aetheris.TestnetWorld

namespace Aetheris.TestnetCancel

open Lib Coroutine Money Clock Enums OrderRecords OrderMachine OrderStore RecordStore OrderEngine OrderCalls
  OrderWrites TestnetService TestnetWorld Reconcile

variable {durable : Bool}

/-- How the venue's adapter answers a cancellation: with its view of the order, or an exchange error. -/
inductive Answer
  | viewed (view : VenueOrderView)
  | failed (message : String)

def Answer.result : Answer → Except ServiceError VenueOrderView
  | viewed view => .ok view
  | failed message => .error (.exchange message)

/-- The service alone with its store, at a time, with one answer to a cancellation. -/
def answering (now : Timestamp) (answer : Answer) :
    {β : Type} → Effect (RecordStore durable) β → World durable → Except ServiceError β × World durable
  | _, .transact step, w => commit step w
  | _, .utcnow, w => (.ok now, w)
  | _, .cancel _ _, w => (answer.result, w)
  | _, _, w => (.error (.other ""), w)

theorem commit_of_ok {α : Type} {step : OrderM (RecordStore durable) α} {w : World durable} {a : α}
    {s : RecordStore durable} (h : step w.orders = .ok (a, s)) : commit step w = (.ok a, w.commit s) := by
  rw [commit, h]

theorem commit_of_error {α : Type} {step : OrderM (RecordStore durable) α} {w : World durable}
    (h : ∀ p, step w.orders ≠ .ok p) : ∃ e, commit step w = (.error e, w) := by
  unfold commit
  cases hstep : step w.orders with
  | ok p => exact absurd hstep (h p)
  | error e => exact ⟨_, rfl⟩

def lostReason (message : String) : String := s!"The cancellation did not return a usable answer: {message}"

section Runs

variable {w : World durable} {orderId : String} {r : OrderRecord} {now : Timestamp} {answer : Answer}

theorem get_loads (h : Loads w.orders orderId r) : OrderRepository.get orderId w.orders = .ok (some r, w.orders) := by
  refine get_ok.mpr ⟨fun r' hr' => ?_, by rw [h.1]⟩
  cases h.1.symm.trans hr'
  exact h.2

theorem interp_cancel (h : Loads w.orders orderId r) :
    (cancel orderId).interp (answering now answer) w =
      if r.isTerminal then
        (.ok { accepted := false, record := some r,
               detail := let state := r.state.value; s!"{orderId} is already {state}." }, w)
      else match answer with
        | .failed message =>
            (perform (.transact (markUnknown r.orderId (lostReason message) now)) >>= fun _ =>
              perform (.transact (OrderRepository.get orderId)) >>= fun stored =>
                pure { accepted := false, record := stored,
                       detail := "The cancellation was sent and its outcome is unknown. The order is " ++
                         "recorded as UNKNOWN and will be reconciled." } :
              ServiceM (RecordStore durable) TestnetOrderResult).interp (answering now (.failed message)) w
        | .viewed view =>
            (perform (.transact (OrderEngine.reconcile r.orderId (some view) true now)) >>= fun resolved =>
              pure { accepted := resolved.1.state = .cancelled, record := some resolved.1,
                     detail := let state := resolved.1.state.value; s!"The venue reports {state}." } :
              ServiceM (RecordStore durable) TestnetOrderResult).interp (answering now (.viewed view)) w := by
  have hget : (perform (.transact (OrderRepository.get orderId)) :
      ServiceM (RecordStore durable) (Option OrderRecord)).interp (answering now answer) w = (.ok (some r), w) := by
    rw [interp_perform]
    exact commit_of_ok (get_loads h)
  rw [cancel, interp_bind_of_ok _ hget]
  dsimp only
  by_cases hterminal : r.isTerminal = true
  · rw [if_pos hterminal, if_pos hterminal]
    rfl
  · rw [if_neg hterminal, if_neg hterminal]
    cases answer with
    | viewed view => rfl
    | failed message => rfl

/-- What cancelling a stored order is to come to, whatever the venue's adapter answers. -/
structure Settles (w : World durable) (orderId : String) (r : OrderRecord) (now : Timestamp) (answer : Answer)
    (outcome : Except ServiceError TestnetOrderResult × World durable) : Prop where
  returns : ∃ result, outcome.1 = .ok result
  terminal : r.isTerminal → outcome.2 = w
  unsent : r.reachedVenue = false → r.state ≠ .unknown →
    ∀ r', outcome.2.orders.find? orderId = some r' → r'.state ≠ .unknown
  adopted : r.isTerminal = false → ∀ view, answer = .viewed view →
    ∃ r', outcome.2.orders.find? orderId = some r' ∧ Applies (Reconcile.decide r (some view) true) now r r'
  unanswered : r.isTerminal = false → r.reachedVenue → ∀ message, answer = .failed message →
    ∃ r', outcome.2.orders.find? orderId = some r' ∧
      (r'.state = .unknown ∨ r'.state = r.state ∧ r.isUnreconciled)

/-- The venue order id of a view belongs to no other order. -/
def Free (s : RecordStore durable) (r : OrderRecord) (view : VenueOrderView) : Prop :=
  s.venueIdTaken { r with venueOrderId := view.venueOrderId.or r.venueOrderId } = false

/-- Where the state machine has an edge for the answer. -/
def HasEdge (s : RecordStore durable) (r : OrderRecord) : Answer → Prop
  | .viewed view => Contradicts r view ∨ view.state = r.state ∨
      canTransition r.state view.state ∧ (view.state = .unknown → r.reachedVenue) ∧ Free s r view
  | .failed _ => canTransition r.state .unknown ∧ r.reachedVenue

theorem interp_transact {α : Type} {step : OrderM (RecordStore durable) α} {a : α} {s : RecordStore durable}
    (h : step w.orders = .ok (a, s)) :
    (perform (.transact step) : ServiceM (RecordStore durable) α).interp (answering now answer) w =
      (.ok a, w.commit s) := by
  rw [interp_perform]
  exact commit_of_ok h

theorem interp_transact_error {α β : Type} {step : OrderM (RecordStore durable) α}
    {k : α → ServiceM (RecordStore durable) β} (h : ∀ p, step w.orders ≠ .ok p) :
    ∃ e, (perform (.transact step) >>= k : ServiceM (RecordStore durable) β).interp (answering now answer) w =
      (.error e, w) := by
  obtain ⟨e, he⟩ := commit_of_error h
  refine ⟨e, interp_bind_of_error _ ?_⟩
  rw [interp_perform]
  exact he

section Failures

theorem readable_withUnknown {message : String} (h : readable durable r) :
    readable durable (withUnknown r (lostReason message) now) := h

theorem cancel_failed {message : String} (h : Loads w.orders orderId r) (hterminal : r.isTerminal = false)
    (hedge : canTransition r.state .unknown) :
    let r' := withUnknown r (lostReason message) now
    ∃ result, (cancel orderId).interp (answering now (.failed message)) w =
      (.ok result, w.commit (w.orders.put r')) := by
  intro r'
  have hmark : markUnknown r.orderId (lostReason message) now w.orders = .ok (r', w.orders.put r') := by
    rw [h.orderId]
    exact markUnknown_ok.mpr ⟨r, h, hedge, (puts_iff_of_eq h r' rfl rfl).mpr rfl⟩
  have hstored : Loads (w.orders.put r') orderId r' := loads_put h.orderId (readable_withUnknown h.2)
  rw [interp_cancel h, if_neg (by rw [hterminal]; exact Bool.false_ne_true)]
  dsimp only
  rw [interp_bind_of_ok _ (interp_transact hmark), interp_bind_of_ok _ (interp_transact (get_loads hstored))]
  exact ⟨_, rfl⟩

theorem cancel_failed_raises {message : String} (h : Loads w.orders orderId r) (hterminal : r.isTerminal = false)
    (hedge : ¬ canTransition r.state .unknown) :
    ∃ e, (cancel orderId).interp (answering now (.failed message)) w = (.error e, w) := by
  have hmark : ∀ p, markUnknown r.orderId (lostReason message) now w.orders ≠ .ok p := by
    intro p hp
    rw [h.orderId] at hp
    obtain ⟨r', hr', hlegal, _⟩ := markUnknown_ok.mp hp
    obtain rfl := h.unique hr'
    exact hedge hlegal
  rw [interp_cancel h, if_neg (by rw [hterminal]; exact Bool.false_ne_true)]
  dsimp only
  exact interp_transact_error hmark

end Failures

section Views

variable {view : VenueOrderView}

theorem venueIdTaken_congr {s : RecordStore durable} {r r' : OrderRecord} (hid : r'.orderId = r.orderId)
    (hvenue : r'.venueOrderId = r.venueOrderId) : s.venueIdTaken r' = s.venueIdTaken r := by
  rw [venueIdTaken, venueIdTaken, hid, hvenue]

/-- Which versions a view makes of an order, and where they can be stored. -/
theorem applies_view_iff (h : Loads w.orders orderId r) :
    (∃ r', Applies (Reconcile.decide r (some view) true) now r r' ∧ w.orders.venueIdTaken r' = false) ↔
      Contradicts r view ∨ view.state = r.state ∨ canTransition r.state view.state ∧ Free w.orders r view := by
  have hfound : w.orders.find? r.orderId = some r := by rw [h.orderId, h.1]
  by_cases hc : Contradicts r view
  · have hdisputed := (decide_view_of_contradicts hc).1
    exact ⟨fun _ => .inl hc, fun _ => ⟨_, .disputed hdisputed, venueIdTaken_of_eq hfound rfl rfl⟩⟩
  have hadopt := decide_view_of_not_contradicts hc
  rw [hadopt]
  have hrecord : (adoptDecision r view).action ≠ .recordDiscrepancy := fun he => nomatch he
  have hreachable : (adoptDecision r view).action ≠ .venueUnreachable := fun he => nomatch he
  constructor
  · rintro ⟨r', happly, hfree⟩
    cases happly with
    | disputed hd => exact absurd hd hrecord
    | unanswered hu => exact absurd hu hreachable
    | repeated _ _ htarget => exact .inr (.inl (Option.some.inj htarget))
    | moved target _ _ htarget _ hedge =>
        obtain rfl : view.state = target := Option.some.inj htarget
        exact .inr (.inr ⟨hedge, (venueIdTaken_congr rfl rfl).trans hfree⟩)
  · rintro (hcontra | hsame | ⟨hedge, hfree⟩)
    · exact absurd hcontra hc
    · exact ⟨_, .repeated hrecord hreachable (congrArg some hsame), venueIdTaken_of_eq hfound rfl rfl⟩
    · by_cases hsame : view.state = r.state
      · exact ⟨_, .repeated hrecord hreachable (congrArg some hsame), venueIdTaken_of_eq hfound rfl rfl⟩
      · exact ⟨_, .moved view.state hrecord hreachable rfl hsame hedge, (venueIdTaken_congr rfl rfl).trans hfree⟩

theorem cancel_viewed {r' : OrderRecord} (h : Loads w.orders orderId r) (hterminal : r.isTerminal = false)
    (happly : Applies (Reconcile.decide r (some view) true) now r r') (hfree : w.orders.venueIdTaken r' = false) :
    ∃ result, (cancel orderId).interp (answering now (.viewed view)) w =
      (.ok result, w.commit (w.orders.put r')) := by
  have hreconcile : OrderEngine.reconcile r.orderId (some view) true now w.orders =
      .ok ((r', Reconcile.decide r (some view) true), w.orders.put r') := by
    rw [h.orderId]
    exact reconcile_ok.mpr ⟨r, r', h, happly, hfree, rfl⟩
  rw [interp_cancel h, if_neg (by rw [hterminal]; exact Bool.false_ne_true)]
  dsimp only
  rw [interp_bind_of_ok _ (interp_transact hreconcile)]
  exact ⟨_, rfl⟩

theorem cancel_viewed_raises (h : Loads w.orders orderId r) (hterminal : r.isTerminal = false)
    (hnone : ¬ ∃ r', Applies (Reconcile.decide r (some view) true) now r r' ∧ w.orders.venueIdTaken r' = false) :
    ∃ e, (cancel orderId).interp (answering now (.viewed view)) w = (.error e, w) := by
  have hreconcile : ∀ p, OrderEngine.reconcile r.orderId (some view) true now w.orders ≠ .ok p := by
    intro p hp
    rw [h.orderId] at hp
    obtain ⟨r₁, r', hr₁, happly, hfree, _⟩ := reconcile_ok.mp hp
    obtain rfl := h.unique hr₁
    exact hnone ⟨r', happly, hfree⟩
  rw [interp_cancel h, if_neg (by rw [hterminal]; exact Bool.false_ne_true)]
  dsimp only
  exact interp_transact_error hreconcile

/-- An answer that is adopted takes the order along an edge, or leaves it where it is. -/
theorem applies_view_state {r' : OrderRecord} (happly : Applies (Reconcile.decide r (some view) true) now r r') :
    r'.state = r.state ∨ ¬ Contradicts r view ∧ view.state ≠ r.state ∧ canTransition r.state view.state ∧
      r'.state = view.state := by
  cases happly with
  | disputed _ => exact .inl rfl
  | unanswered _ => exact .inl rfl
  | repeated _ _ _ => exact .inl rfl
  | moved target _ _ htarget hne hedge =>
      by_cases hc : Contradicts r view
      · rw [(decide_view_of_contradicts hc).2.1] at htarget
        cases htarget
      · rw [decide_view_of_not_contradicts hc] at htarget
        obtain rfl : view.state = target := Option.some.inj htarget
        exact .inr ⟨hc, hne, hedge, rfl⟩

end Views

theorem find?_after {r' : OrderRecord} (hid : r'.orderId = orderId) :
    (w.commit (w.orders.put r')).orders.find? orderId = some r' := by
  rw [← hid]
  exact find?_put_self w.orders r'

theorem settles_terminal (h : Loads w.orders orderId r) (hterminal : r.isTerminal = true) :
    Settles w orderId r now answer ((cancel orderId).interp (answering now answer) w) := by
  rw [interp_cancel h, if_pos hterminal]
  refine ⟨⟨_, rfl⟩, fun _ => rfl, fun _ hne r' hr' => ?_, fun hopen => ?_, fun hopen => ?_⟩
  · obtain rfl := Option.some.inj (h.1.symm.trans hr')
    exact hne
  all_goals
    rw [hterminal] at hopen
    cases hopen

theorem settles_failed_iff {message : String} (h : Loads w.orders orderId r) (hterminal : r.isTerminal = false) :
    Settles w orderId r now (.failed message) ((cancel orderId).interp (answering now (.failed message)) w) ↔
      canTransition r.state .unknown ∧ r.reachedVenue := by
  constructor
  · intro hsettles
    have hedge : canTransition r.state .unknown := by
      by_contra hedge
      obtain ⟨e, he⟩ := cancel_failed_raises h hterminal hedge
      obtain ⟨result, hresult⟩ := hsettles.returns
      rw [he] at hresult
      cases hresult
    refine ⟨hedge, ?_⟩
    by_contra hunsent
    obtain ⟨result, hrun⟩ := cancel_failed h hterminal hedge
    rw [hrun] at hsettles
    have hknown : r.state ≠ .unknown := by
      intro hstate
      rw [hstate] at hedge
      cases hedge
    exact hsettles.unsent (Bool.not_eq_true _ ▸ hunsent) hknown _ (find?_after h.orderId) rfl
  · rintro ⟨hedge, hsent⟩
    obtain ⟨result, hrun⟩ := cancel_failed h hterminal hedge
    rw [hrun]
    refine ⟨⟨_, rfl⟩, fun hdone => ?_, fun hunsent => ?_, fun _ view hview => ?_, fun _ _ message' _ => ?_⟩
    · rw [hterminal] at hdone
      cases hdone
    · rw [hsent] at hunsent
      cases hunsent
    · cases hview
    · exact ⟨_, find?_after h.orderId, .inl rfl⟩

/-- An answer that neither contradicts the record nor repeats its state moves it. -/
theorem applies_view_moved {view : VenueOrderView} {r' : OrderRecord}
    (happly : Applies (Reconcile.decide r (some view) true) now r r') (hc : ¬ Contradicts r view)
    (hsame : view.state ≠ r.state) : r'.state = view.state := by
  rcases applies_view_state happly with hstays | ⟨_, _, _, hmoved⟩
  · cases happly with
    | disputed hd =>
        rw [decide_view_of_not_contradicts hc] at hd
        cases hd
    | unanswered hu =>
        rw [decide_view_of_not_contradicts hc] at hu
        cases hu
    | repeated _ _ htarget =>
        rw [decide_view_of_not_contradicts hc] at htarget
        exact absurd (Option.some.inj htarget) hsame
    | moved target _ _ _ hne _ => exact absurd hstays hne
  · exact hmoved

theorem hasEdge_of_settles_viewed {view : VenueOrderView} (h : Loads w.orders orderId r) (hterminal : r.isTerminal = false)
    (hsettles : Settles w orderId r now (.viewed view) ((cancel orderId).interp (answering now (.viewed view)) w)) :
    HasEdge w.orders r (.viewed view) := by
  have hexists : ∃ r', Applies (Reconcile.decide r (some view) true) now r r' ∧ w.orders.venueIdTaken r' = false := by
    by_contra hnone
    obtain ⟨e, he⟩ := cancel_viewed_raises h hterminal hnone
    obtain ⟨result, hresult⟩ := hsettles.returns
    rw [he] at hresult
    cases hresult
  rcases (applies_view_iff h).mp hexists with hc | hsame | ⟨hedge, hfree⟩
  · exact .inl hc
  · exact .inr (.inl hsame)
  by_cases hc : Contradicts r view
  · exact .inl hc
  by_cases hsame : view.state = r.state
  · exact .inr (.inl hsame)
  refine .inr (.inr ⟨hedge, fun hunknown => ?_, hfree⟩)
  by_contra hunsent
  obtain ⟨r', hr', happly⟩ := hsettles.adopted hterminal view rfl
  have hmoved := applies_view_moved happly hc hsame
  refine hsettles.unsent (Bool.not_eq_true _ ▸ hunsent) ?_ r' hr' (hmoved.trans hunknown)
  rw [← hunknown]
  exact Ne.symm hsame

theorem settles_viewed {view : VenueOrderView} (h : Loads w.orders orderId r) (hterminal : r.isTerminal = false)
    (hhas : HasEdge w.orders r (.viewed view)) :
    Settles w orderId r now (.viewed view) ((cancel orderId).interp (answering now (.viewed view)) w) := by
  have hedges : Contradicts r view ∨ view.state = r.state ∨ canTransition r.state view.state ∧ Free w.orders r view := by
    rcases hhas with hc | hsame | ⟨hedge, _, hfree⟩
    · exact .inl hc
    · exact .inr (.inl hsame)
    · exact .inr (.inr ⟨hedge, hfree⟩)
  obtain ⟨r', happly, hfree⟩ : ∃ r', Applies (Reconcile.decide r (some view) true) now r r' ∧
      w.orders.venueIdTaken r' = false := (applies_view_iff h).mpr hedges
  obtain ⟨result, hrun⟩ := cancel_viewed h hterminal happly hfree
  have hid : r'.orderId = orderId := happly.orderId.trans h.orderId
  rw [hrun]
  refine ⟨⟨_, rfl⟩, fun hdone => ?_, fun hunsent hknown q hq => ?_, fun _ view' hview => ?_,
    fun _ _ message hmessage => ?_⟩
  · rw [hterminal] at hdone
    cases hdone
  · obtain rfl := Option.some.inj ((find?_after hid).symm.trans hq)
    rcases applies_view_state happly with hstays | ⟨hc, hne, _, hmoved⟩
    · rw [hstays]
      exact hknown
    · rw [hmoved]
      intro hunknown
      rcases hhas with hc' | hsame | ⟨_, hsent, _⟩
      · exact hc hc'
      · exact hne hsame
      · rw [hsent hunknown] at hunsent
        cases hunsent
  · cases hview
    exact ⟨r', find?_after hid, happly⟩
  · cases hmessage

theorem settles_viewed_iff {view : VenueOrderView} (h : Loads w.orders orderId r) (hterminal : r.isTerminal = false) :
    Settles w orderId r now (.viewed view) ((cancel orderId).interp (answering now (.viewed view)) w) ↔
      HasEdge w.orders r (.viewed view) :=
  ⟨hasEdge_of_settles_viewed h hterminal, settles_viewed h hterminal⟩

end Runs

/-- An order whose submission was never answered. -/
def lostOrder : OrderRecord where
  orderId := "order-1"
  clientOrderId := "client-1"
  intent := exampleIntent
  state := .unknown
  createdAt := 0
  updatedAt := 1
  submittedAt := some 1

def lostWorld : World true := { orders := RecordStore.empty.put lostOrder }

theorem loads_lostOrder : Loads lostWorld.orders "order-1" lostOrder := loads_put rfl (by decide +kernel)

theorem unfilled_nonneg : (0 : Decimal) ≤ 0 := le_refl 0

/-- The venue did cancel it. -/
def cancelledView : VenueOrderView where
  clientOrderId := "client-1"
  venueOrderId := some "77"
  state := .cancelled
  observedAt := 2
  filledQuantity_nonneg := unfilled_nonneg

end Aetheris.TestnetCancel
