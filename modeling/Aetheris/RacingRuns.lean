import Aetheris.RacingCalls

namespace Aetheris.RacingRuns

open Lib Coroutine Protocol Money Clock Enums OrderRecords OrderMachine OrderStore OrderEngine OrderCalls OrderIdentity
open RecordStore Settlement TestnetService VenueHistory TrackedRecords RacingCalls

variable {durable : Bool} {venueId : String ↪ String} {α β : Type}

section Legal

variable {s : RecordStore durable} {orderId : String} {o : OrderRecord}

/-- It did not trip over the order machine. -/
def Legal (x : Except OrderError α) : Prop := ∀ e, x ≠ .error (.illegalTransition e)

theorem Legal.bind {x : OrderM (RecordStore durable) α} {f : α → OrderM (RecordStore durable) β} (hx : Legal (x s))
    (hf : ∀ a t, x s = .ok (a, t) → Legal (f a t)) : Legal ((x >>= f) s) := by
  cases h : x s with
  | ok p =>
      rw [Transaction.bind_of_ok h]
      exact hf p.1 p.2 h
  | error e =>
      rw [Transaction.bind_of_error h]
      intro e' he
      cases he
      exact hx e' h

theorem legal_pure (a : α) : Legal ((pure a : OrderM (RecordStore durable) α) s) := fun _ he => nomatch he

theorem legal_loadOption (r : Option OrderRecord) (s : RecordStore durable) : Legal (loadOption r s) := by
  cases r with
  | none => exact legal_pure none
  | some r =>
      refine Legal.bind (x := load r) ?_ fun a t _ => legal_pure (some a)
      intro e h
      unfold load at h
      split at h
      · cases h
      · cases h

theorem legal_get (orderId : String) (s : RecordStore durable) : Legal (OrderRepository.get orderId s) :=
  legal_loadOption (s.find? orderId) s

theorem legal_addOrGet (r : OrderRecord) (s : RecordStore durable) : Legal (OrderRepository.addOrGet r s) := by
  change Legal (addOrGet r s)
  unfold addOrGet
  refine Legal.bind (x := getByClientOrderId r.clientOrderId) (legal_loadOption _ s) fun a t _ => ?_
  cases a with
  | some existing => exact legal_pure (existing, false)
  | none =>
      refine Legal.bind (x := add r) ?_ fun a t _ => legal_pure (a, true)
      intro e h
      unfold add at h
      dsimp only at h
      split at h
      · cases h
      · split at h
        · cases h
        · split at h
          · cases h
          · cases h

theorem legal_held {f : OrderRecord → OrderM (RecordStore durable) α} (h : ∀ r, Loads s orderId r → Legal (f r s)) :
    Legal (held orderId f s) := by
  refine Legal.bind (x := OrderRepository.get orderId) (legal_get orderId s) fun a t ht => ?_
  obtain ⟨hread, hp⟩ := get_ok.mp ht
  cases hp
  cases hf : s.find? orderId with
  | some r => exact h r ⟨hf, hread r hf⟩
  | none => exact fun _ he => nomatch he

theorem legal_recordUnreadable (orderId detail : String) (now : Timestamp) (s : RecordStore durable) :
    Legal (OrderRepository.recordUnreadable orderId detail now s) := by
  intro e h
  change recordUnreadable orderId detail now s = _ at h
  unfold recordUnreadable at h
  cases durable with
  | false => cases h
  | true => cases hf : s.find? orderId <;> simp [hf] at h

theorem legal_checkedUpdate (target : OrderRecord → OrderState) {write : OrderRecord → OrderRecord}
    (h : ∀ r, Loads s orderId r → canTransition r.state (target r)) :
    Legal (held orderId (fun record => do
      check record.state (target record) orderId
      OrderRepository.update (write record)) s) := by
  refine legal_held fun r hr => ?_
  rw [Transaction.bind_of_ok (check_of_canTransition (h r hr))]
  exact update_not_illegal (write r) s

theorem legal_write {target : OrderState} {write : OrderRecord → OrderRecord}
    (hc : canTransition o.state target) (hl : Loads s o.orderId o) :
    Legal (held o.orderId (fun record => do
      check record.state target o.orderId
      OrderRepository.update (write record)) s) := by
  refine legal_checkedUpdate (fun _ => target) fun r hr => ?_
  rw [hr.unique hl]
  exact hc

theorem eq_of_puts {write : OrderRecord → OrderRecord} {p : OrderRecord × RecordStore durable}
    {target : OrderState} (hl : Loads s o.orderId o)
    (h : ∃ r, Loads s o.orderId r ∧ canTransition r.state target ∧ Puts s (write r) p) :
    p = (write o, s.put (write o)) := by
  obtain ⟨r, hr, _, _, hp⟩ := h
  rw [hp, hr.unique hl]

theorem legal_reconcile {answer : Option VenueOrderView} {reachable : Bool} {now : Timestamp}
    (h : ∀ r, Loads s orderId r → Applicable r answer reachable) :
    Legal (OrderEngine.reconcile orderId answer reachable now s) := by
  refine legal_held fun r hr e he => ?_
  have hraised : OrderEngine.reconcile orderId answer reachable now s = .error (.illegalTransition e) := by
    unfold OrderEngine.reconcile
    rw [held_of_loads _ hr]
    exact he
  exact (blocked_decide_iff r answer reachable).mp ((reconcile_illegal_iff hr now).mp ⟨e, hraised⟩) (h r hr)

end Legal

def Owns (own : Option OrderRecord) (w : RacingWorld durable venueId) : Prop :=
  ∀ o ∈ own, w.orders.find? o.orderId = some o ∧ o.submittedAt = none

/-- A call knows the draft that it alone may write, and the world as it last saw it. -/
def protocol : Protocol (RacingWorld durable venueId) (Option OrderRecord × RacingWorld durable venueId) where
  inv := Agrees
  holds := fun g w => Grows g.2 w ∧ Owns g.1 w
  apart := fun g h => ∀ o ∈ g.1, ∀ o' ∈ h.1, o.orderId ≠ o'.orderId
  apart_symm := fun h o ho o' ho' => (h o' ho' o ho).symm

/-- A step after which the call owns this draft. -/
structure Turns (own own' : Option OrderRecord) (w w' : RacingWorld durable venueId) : Prop
    extends Preserves own w w' where
  owned : Owns own' w'
  named : ∀ o ∈ own', (∃ d ∈ own, d.orderId = o.orderId) ∨ w.orders.find? o.orderId = none

variable {own own' : Option OrderRecord} {w w' w₁ seen : RacingWorld durable venueId}

theorem Turns.moves (h : Turns own own' w w') {seen' : RacingWorld durable venueId} (hseen : Grows seen' w') :
    protocol.Moves (own, seen) w (own', seen') w' where
  inv := h.agrees
  holds := ⟨hseen, h.owned⟩
  frame := fun g hapart hg => by
    refine ⟨hg.1.trans h.grows, fun o ho => ?_⟩
    obtain ⟨hfind, hs⟩ := hg.2 o ho
    exact ⟨h.drafts o hfind hs fun d hd => hapart d hd o ho, hs⟩
  apart := fun g hapart hg o ho o' ho' => by
    rcases h.named o ho with ⟨d, hd, hid⟩ | hnew
    · exact hid ▸ hapart d hd o' ho'
    · intro he
      rw [he, (hg.2 o' ho').1] at hnew
      cases hnew

theorem Turns.of_owns (h : Preserves own w w') (ho : Owns own w') : Turns own own w w' :=
  { h with owned := ho, named := fun o ho => .inl ⟨o, ho, rfl⟩ }

theorem Turns.release (h : Preserves own w w') : Turns own none w w' :=
  ⟨h, (fun _ ho => nomatch ho), (fun _ ho => nomatch ho)⟩

/-- The venue moves on in the same step. -/
theorem Turns.aged (h : Turns own own' w w₁) (hw : w'.toWorld = w₁.toWorld) (hv : w₁.venue = w.venue)
    (hages : Ages w'.sent w.venue w'.venue) (hknown : TakesKnown w w') : Turns own own' w w' := by
  obtain ⟨desk, venue⟩ := w'
  cases hw
  have hpreserves : Preserves own w₁ { w₁ with venue := venue } := by
    refine preserves_ages h.agrees (hv ▸ hages) fun orderId r hr hn hs => ?_
    rw [hv] at hn
    exact hknown orderId r hr hn hs
  exact ⟨h.toPreserves.trans hpreserves, h.owned, h.named⟩

theorem turns_refl (hi : Agrees w) (ho : Owns own w) : Turns own own w w := .of_owns (preserves_refl hi) ho

section Effects

variable [Runtime]

def Harmless (r : Except ServiceError α) : Prop := ∀ e, r ≠ .error (.order (.illegalTransition e))

abbrev Runs (own : Option OrderRecord) (seen : RacingWorld durable venueId) (c : ServiceM (RecordStore durable) α) :
    Prop := protocol.Safe orderly c (own, seen) (fun r _ => Harmless r)

def Landable (step : OrderM (RecordStore durable) α) (w : RacingWorld durable venueId) : Prop :=
  ∀ orderId landing, Lands (.transact step) orderId landing → ∀ record, w.orders.find? orderId = some record →
    landing.Fits w record

/-- What a step of the store does, whether or not its answer arrives. -/
theorem runs_commits {step : OrderM (RecordStore durable) α} {r : Except ServiceError α}
    {k : α → ServiceM (RecordStore durable) β} (hi : Agrees w) (hg : Grows seen w) (ho : Owns own w)
    (hx : TestnetWorld.Commits step w.toWorld r w'.toWorld) (hages : Ages w'.sent w.venue w'.venue)
    (hknown : TakesKnown w w') (hlegal : Legal (step w.orders))
    (h : ∀ a t, step w.orders = .ok (a, t) → ∃ own', Turns own own' w (w.commit t) ∧ Runs own' (w.commit t) (k a)) :
    ∃ g', protocol.Moves (own, seen) w g' w' ∧
      match r with
      | .ok a => Runs g'.1 g'.2 (k a)
      | .error e => Harmless (.error e : Except ServiceError β) := by
  have hstays : w'.toWorld = w.toWorld → protocol.Moves (own, seen) w (own, seen) w' := by
    intro hw
    have hturns := (turns_refl hi ho).aged hw rfl hages hknown
    exact hturns.moves (hg.trans hturns.grows)
  unfold TestnetWorld.Commits at hx
  cases hstep : step w.orders with
  | ok p =>
      obtain ⟨a, t⟩ := p
      rw [hstep] at hx
      obtain ⟨own', hturns, hruns⟩ := h a t hstep
      have hcommitted : w'.toWorld = w.toWorld.commit t → protocol.Moves (own, seen) w (own', w.commit t) w' := by
        intro hw
        have haged := hturns.aged hw rfl hages hknown
        refine haged.moves ⟨fun orderId r hr => ⟨r, ?_, .refl r⟩, hages.keeps⟩
        rw [hw]
        exact hr
      rcases hx with ⟨rfl, hw⟩ | ⟨⟨message, rfl⟩, hw | hw⟩
      · exact ⟨_, hcommitted hw, hruns⟩
      · exact ⟨_, hstays hw, fun _ he => nomatch he⟩
      · exact ⟨_, hcommitted hw, fun _ he => nomatch he⟩
  | error e =>
      rw [hstep] at hx
      obtain ⟨rfl | ⟨message, rfl⟩, hw⟩ := hx
      · refine ⟨_, hstays hw, fun e' he => ?_⟩
        cases he
        exact hlegal e' hstep
      · exact ⟨_, hstays hw, fun _ he => nomatch he⟩

theorem runs_transact {step : OrderM (RecordStore durable) α} {k : α → ServiceM (RecordStore durable) β}
    (h : ∀ w, Agrees w → Grows seen w → Owns own w → Landable step w → Legal (step w.orders) ∧
      ∀ a t, step w.orders = .ok (a, t) → ∃ own', Turns own own' w (w.commit t) ∧ Runs own' (w.commit t) (k a)) :
    Runs own seen (perform (.transact step) >>= k) := by
  apply Safe.bind
  apply Safe.perform
  rintro w r w' hi ⟨hg, ho⟩ ⟨⟨hx, hages, _⟩, horderly⟩
  obtain ⟨hlegal, hsteps⟩ := h w hi hg ho horderly.lands
  obtain ⟨g', hm, hk⟩ := runs_commits hi hg ho hx hages horderly.takesKnown hlegal hsteps
  refine ⟨g', hm, ?_⟩
  cases r with
  | ok a => exact hk
  | error e => exact hk

/-- An effect that asks for something and writes nothing. -/
def Asks : {α : Type} → Effect (RecordStore durable) α → Prop
  | _, .submit _ | _, .transact _ | _, .createOrGet _ => False
  | _, _ => True

theorem eq_of_asks {f : Effect (RecordStore durable) α} {desk desk' : TestnetWorld.World durable}
    {r : Except ServiceError α} (hf : Asks f) (hx : TestnetWorld.exec f desk r desk') : desk' = desk := by
  cases f with
  | submit record => exact absurd hf id
  | transact step => exact absurd hf id
  | createOrGet intent => exact absurd hf id
  | _ => exact hx

omit [Runtime] in
theorem harmless_of_asks {f : Effect (RecordStore durable) α} {r : Except ServiceError α} {venue : Venue venueId}
    (hf : Asks f) (h : Answered f r venue) : Harmless r := by
  rintro e rfl
  cases f with
  | submit record => exact absurd hf id
  | transact step => exact absurd hf id
  | createOrGet intent => exact absurd hf id
  | _ => exact h e rfl

/-- What the venue answers, a call may rely on from then on. -/
theorem safe_asked {f : Effect (RecordStore durable) α} {k : Except ServiceError α → ServiceM (RecordStore durable) β}
    {post : Except ServiceError β → Option OrderRecord × RacingWorld durable venueId → Prop} (hf : Asks f)
    (h : ∀ w r, Agrees w → Grows seen w → Answered f r w.venue → Harmless r →
      protocol.Safe orderly (k r) (own, w) post) :
    protocol.Safe orderly ((perform f).caught >>= k) (own, seen) post := by
  apply Safe.bind
  apply Safe.caught
  apply Safe.perform
  rintro w r w' hi ⟨hg, ho⟩ ⟨⟨hx, hages, hanswered⟩, horderly⟩
  have hturns := (turns_refl hi ho).aged (eq_of_asks hf hx) rfl hages horderly.takesKnown
  exact ⟨(own, w'), hturns.moves (.refl w'),
    h w' r hturns.agrees (hg.trans hturns.grows) hanswered (harmless_of_asks hf hanswered)⟩

/-- A part of a call that only asks. -/
def Still (durable : Bool) (venueId : String ↪ String) (c : ServiceM (RecordStore durable) α) : Prop :=
  ∀ (own : Option OrderRecord) (seen : RacingWorld durable venueId),
    protocol.Safe orderly c (own, seen) (fun r g => g = (own, seen) ∧ Harmless r)

theorem still_perform {f : Effect (RecordStore durable) α} (hf : Asks f) : Still durable venueId (perform f) := by
  intro own seen
  apply Safe.perform
  rintro w r w' hi ⟨hg, ho⟩ ⟨⟨hx, hages, hanswered⟩, horderly⟩
  have hturns := (turns_refl hi ho).aged (eq_of_asks hf hx) rfl hages horderly.takesKnown
  exact ⟨(own, seen), hturns.moves (hg.trans hturns.grows), rfl, harmless_of_asks hf hanswered⟩

theorem still_pure (a : α) : Still durable venueId (pure a) := fun _ _ => ⟨rfl, fun _ he => nomatch he⟩

theorem still_raise {e : ServiceError} (h : Harmless (.error e : Except ServiceError α)) :
    Still durable venueId (raise e : ServiceM (RecordStore durable) α) := fun _ _ => ⟨rfl, h⟩

theorem Still.bind {c : ServiceM (RecordStore durable) α} {k : α → ServiceM (RecordStore durable) β}
    (hc : Still durable venueId c) (hk : ∀ a, Still durable venueId (k a)) : Still durable venueId (c >>= k) := by
  intro own seen
  apply Safe.bind
  refine (hc own seen).mono fun r g hg => ?_
  obtain ⟨rfl, hr⟩ := hg
  cases r with
  | ok a => exact hk a own seen
  | error e => exact ⟨rfl, fun e' he => hr e' (by cases he; rfl)⟩

theorem Still.caught {c : ServiceM (RecordStore durable) α} {k : Except ServiceError α → ServiceM (RecordStore durable) β}
    (hc : Still durable venueId c) (hk : ∀ r, Harmless r → Still durable venueId (k r)) :
    Still durable venueId (c.caught >>= k) := by
  intro own seen
  apply Safe.bind
  apply Safe.caught
  refine (hc own seen).mono fun r g hg => ?_
  obtain ⟨rfl, hr⟩ := hg
  exact hk r hr own seen

theorem runs_still {c : ServiceM (RecordStore durable) α} {k : α → ServiceM (RecordStore durable) β}
    (hc : Still durable venueId c) (hk : ∀ a, Runs own seen (k a)) : Runs own seen (c >>= k) := by
  apply Safe.bind
  refine (hc own seen).mono fun r g hg => ?_
  obtain ⟨rfl, hr⟩ := hg
  cases r with
  | ok a => exact hk a
  | error e => exact fun e' he => hr e' (by cases he; rfl)

theorem runs_caught {c : ServiceM (RecordStore durable) α} {k : Except ServiceError α → ServiceM (RecordStore durable) β}
    (hc : Still durable venueId c) (hk : ∀ r, Harmless r → Runs own seen (k r)) : Runs own seen (c.caught >>= k) := by
  apply Safe.bind
  apply Safe.caught
  refine (hc own seen).mono fun r g hg => ?_
  obtain ⟨rfl, hr⟩ := hg
  exact hk r hr

/-- The draft of a call, written by the call. -/
theorem runs_own (own' : Option OrderRecord) {o : OrderRecord} {step : OrderM (RecordStore durable) OrderRecord}
    {k : OrderRecord → ServiceM (RecordStore durable) β} (write : OrderRecord → OrderRecord)
    (hlegal : ∀ s, Loads s o.orderId o → Legal (step s))
    (hstep : ∀ s p, Loads s o.orderId o → step s = .ok p → p = (write o, s.put (write o)))
    (hwrite : ∀ {venueOrderId} {venue : Option (Placed venueOrderId)}, Tracks venue o →
      Tracks venue (write o) ∧ Succeeds o (write o))
    (hnext : ∀ o' ∈ own', o' = write o ∧ (write o).submittedAt = none)
    (hk : ∀ seen : RacingWorld durable venueId, seen.orders.find? o.orderId = some (write o) →
      Runs own' seen (k (write o))) :
    Runs (some o) seen (perform (.transact step) >>= k) := by
  apply runs_transact
  intro w hi _ ho _
  obtain ⟨hfind, hs⟩ := ho o rfl
  have htracks := hi.rows o.orderId o hfind
  have hloads : Loads w.orders o.orderId o := ⟨hfind, htracks.readable⟩
  refine ⟨hlegal w.orders hloads, fun a t ht => ?_⟩
  cases hstep w.orders (a, t) hloads ht
  obtain ⟨htracks', hsucc⟩ := hwrite htracks
  have hself : (w.orders.put (write o)).find? o.orderId = some (write o) := by rw [← hsucc.orderId, find?_put_self]
  refine ⟨own', ⟨preserves_put hi hfind htracks' hsucc (.inr rfl), fun o' ho' => ?_, fun o' ho' => ?_⟩, hk _ hself⟩
  · obtain ⟨rfl, hs'⟩ := hnext o' ho'
    exact ⟨hsucc.orderId ▸ hself, hs'⟩
  · obtain ⟨rfl, _⟩ := hnext o' ho'
    exact .inl ⟨o, rfl, hsucc.orderId.symm⟩

theorem runs_get {orderId : String} {k : Option OrderRecord → ServiceM (RecordStore durable) β}
    (h : ∀ w, Agrees w → Grows seen w → Owns own w → Runs own w (k (w.orders.find? orderId))) :
    Runs own seen (perform (.transact (OrderRepository.get orderId)) >>= k) := by
  apply runs_transact
  intro w hi hg ho _
  refine ⟨legal_get orderId w.orders, fun a t ht => ?_⟩
  obtain ⟨_, he⟩ := get_ok.mp ht
  cases he
  exact ⟨own, turns_refl hi ho, h w hi hg ho⟩

/-- An order that was sent, written by a call that brings something to it. -/
theorem runs_lands {step : OrderM (RecordStore durable) α} {k : α → ServiceM (RecordStore durable) β}
    (h : ∀ w, Agrees w → Grows seen w → Landable step w → Legal (step w.orders) ∧
      ∀ a t, step w.orders = .ok (a, t) → ∃ r r', w.orders.find? r.orderId = some r ∧ r.submittedAt.isSome ∧
        Tracks (w.venue r.clientOrderId) r' ∧ Succeeds r r' ∧ t = w.orders.put r')
    (hk : ∀ a w, Grows seen w → Runs none w (k a)) : Runs none seen (perform (.transact step) >>= k) := by
  apply runs_transact
  intro w hi hg _ hlands
  obtain ⟨hlegal, hstep⟩ := h w hi hg hlands
  refine ⟨hlegal, fun a t ht => ?_⟩
  obtain ⟨r, r', hr, hs, htracks, hsucc, rfl⟩ := hstep a t ht
  have hpreserves : Preserves none w (w.commit (w.orders.put r')) := preserves_put hi hr htracks hsucc (.inl hs)
  exact ⟨none, .release hpreserves, hk a _ (hg.trans hpreserves.grows)⟩

theorem runs_unknown {orderId reason : String} {now : Timestamp}
    {k : OrderRecord → ServiceM (RecordStore durable) β} (hk : ∀ a w, Grows seen w → Runs none w (k a)) :
    Runs none seen (perform (.transact (markUnknown orderId reason now)) >>= k) := by
  refine runs_lands (fun w hi _ hlands => ?_) hk
  have hfits := hlands orderId .unknown (.unknown orderId reason now)
  constructor
  · refine legal_checkedUpdate (fun _ => .unknown) fun r hr => ?_
    rw [(hfits r hr.1).1]
    rfl
  · intro a t ht
    obtain ⟨r, hr, _, _, he⟩ := markUnknown_ok.mp ht
    cases he
    obtain ⟨hstate, hnone⟩ := hfits r hr.1
    have htracks := hi.rows orderId r hr.1
    have hs := htracks.stamped hstate
    rw [hnone] at htracks
    refine ⟨r, withUnknown r reason now, by rw [hr.orderId, hr.1], hs, ?_, ⟨rfl, rfl, le_rfl, fun hs => ⟨hs, rfl⟩⟩, rfl⟩
    rw [hnone]
    exact htracks.unknown reason

theorem runs_acknowledged {record : OrderRecord} {view : VenueOrderView} {now : Timestamp}
    {k : OrderRecord → ServiceM (RecordStore durable) β} {orderId : String}
    (hrow : seen.orders.find? orderId = some record) (hsaid : Said seen.venue record.clientOrderId view)
    (hzero : view.filledQuantity = 0) (hk : ∀ a w, Grows seen w → Runs none w (k a)) :
    Runs none seen (perform (.transact (applyVenueAck orderId (view.venueOrderId.getD "") view.state now)) >>= k) := by
  refine runs_lands (fun w hi hg hlands => ?_) hk
  have hfits := hlands orderId (.acknowledged view.state) (.acknowledged orderId _ view.state now)
  constructor
  · exact legal_checkedUpdate (fun _ => view.state) fun r hr => hfits r hr.1
  · intro a t ht
    obtain ⟨r, hr, hc, _, he⟩ := applyVenueAck_ok.mp ht
    cases he
    obtain ⟨b, hb, hsucc⟩ := hg.orders orderId record hrow
    cases hr.1.symm.trans hb
    rw [← hsucc.clientOrderId] at hsaid
    obtain ⟨placed, hplaced, hview⟩ := hg.said hsaid
    have htracks := hi.rows orderId r hr.1
    rw [hplaced] at htracks
    refine ⟨r, withAck r (view.venueOrderId.getD "") view.state now, by rw [hr.orderId, hr.1], htracks.standing.1, ?_,
      ⟨rfl, rfl, le_rfl, fun hs => ⟨hs, rfl⟩⟩, rfl⟩
    rw [hplaced]
    exact htracks.acknowledged hview hzero hc

theorem runs_reconcile {record : OrderRecord} {orderId : String} {answer : Option VenueOrderView} {reachable : Bool}
    {now : Timestamp} {k : OrderRecord × ReconciliationDecision → ServiceM (RecordStore durable) β}
    (hrow : seen.orders.find? orderId = some record) (hs : record.submittedAt.isSome)
    (hsaid : ∀ view ∈ answer, Said seen.venue record.clientOrderId view)
    (hk : ∀ a w, Grows seen w → Runs none w (k a)) :
    Runs none seen (perform (.transact (OrderEngine.reconcile orderId answer reachable now)) >>= k) := by
  refine runs_lands (fun w hi hg hlands => ?_) hk
  obtain ⟨b, hb, hsucc⟩ := hg.orders orderId record hrow
  rw [← hsucc.clientOrderId] at hsaid
  have htracks := hi.rows orderId b hb
  have hsent := (hsucc.sent hs).1
  have htold : Told (w.venue b.clientOrderId) answer reachable := by
    cases reachable with
    | false => cases answer <;> trivial
    | true =>
        cases answer with
        | none => exact hlands orderId .absent (.absent orderId now) b hb
        | some view =>
            obtain ⟨placed, hplaced, hview⟩ := hg.said (hsaid view rfl)
            exact ⟨placed, hplaced, hview⟩
  constructor
  · refine legal_reconcile fun r hr => ?_
    cases hr.1.symm.trans hb
    exact htracks.applicable hsent htold
  · intro a t ht
    obtain ⟨r, r', hr, happly, _, he⟩ := reconcile_ok.mp ht
    cases hr.1.symm.trans hb
    cases he
    obtain ⟨htracks', hsucc'⟩ := htracks.reconciled hsent htold happly
    exact ⟨b, r', by rw [hr.orderId, hb], hsent, htracks', hsucc', rfl⟩

/-- The order is handed over, and may be at the venue from then on. -/
theorem runs_submit {record : OrderRecord} {k : Except ServiceError VenueOrderView → ServiceM (RecordStore durable) β}
    (hrow : seen.orders.find? record.orderId = some record) (hs : record.submittedAt.isSome)
    (h : ∀ (w : RacingWorld durable venueId) r, Grows seen w →
      Answered (.submit record : Effect (RecordStore durable) VenueOrderView) r w.venue →
      Unexecuted (.submit record : Effect (RecordStore durable) VenueOrderView) r → Runs none w (k r)) :
    Runs none seen ((perform (.submit record)).caught >>= k) := by
  apply Safe.bind
  apply Safe.caught
  apply Safe.perform
  rintro w r w' hi ⟨hg, _⟩ ⟨⟨hx, hages, hanswered⟩, horderly⟩
  obtain ⟨b, hb, hsucc⟩ := hg.orders record.orderId record hrow
  have hhanded : Preserves none w { w with toWorld := w.receive record r } := preserves_receive hi hb hsucc hs r
  have hturns := (Turns.release hhanded).aged hx rfl hages horderly.takesKnown
  exact ⟨(none, w'), hturns.moves (.refl w'), h w' r (hg.trans hturns.grows) hanswered horderly.unexecuted⟩

theorem runs_returns {c : ServiceM (RecordStore durable) α} (hc : Runs own seen c) (f : α → β) :
    Runs own seen (c >>= fun a => pure (f a)) := by
  apply Safe.bind
  refine hc.mono fun r g hr => ?_
  cases r with
  | ok a => exact fun _ he => nomatch he
  | error e => exact fun e' he => hr e' (by cases he; rfl)

section Submit

variable {o record : OrderRecord} {checksPerformed : List String} {now : Timestamp}

theorem runs_rejected (ho : o.orderId = record.orderId) (hstate : o.state = .validating) (hs : o.submittedAt = none)
    (code : RiskRejectionCode) (detail : String) (now : Timestamp) (rejectionCode : Option RiskRejectionCode)
    (checksPerformed : List String) :
    Runs (some o) seen (rejected (σ := RecordStore durable) record code detail now rejectionCode checksPerformed) := by
  unfold rejected
  rw [← ho]
  refine runs_own none (fun r => withRiskRejection r code detail now) (fun s hl => ?_) (fun s p hl hp => ?_)
    (fun {_ _} h => ⟨?_, ⟨rfl, rfl, le_rfl, fun hs => ⟨hs, rfl⟩⟩⟩) (fun _ hn => nomatch hn) fun seen _ => ?_
  · exact legal_write (by rw [hstate]; rfl) hl
  · exact eq_of_puts hl (markRiskRejected_ok.mp hp)
  · exact h.drafted hs hs (by simp [withRiskRejection]) rfl rfl rfl rfl h.venueLeverage
  · exact runs_get fun _ _ _ _ _ he => nomatch he

theorem size_still (symbol : String) (margin leverage : Decimal) :
    Still durable venueId (size (σ := RecordStore durable) symbol margin leverage) := by
  refine Still.bind (still_perform (f := .lastPrice symbol) trivial) fun price => ?_
  cases price with
  | none => exact still_pure _
  | some price =>
      refine Still.caught (still_perform (f := .stepSize symbol) trivial) fun step hstep => ?_
      cases step with
      | error e =>
          dsimp only
          split
          · exact still_pure _
          · exact still_raise fun e' he => hstep e' (by cases he; rfl)
      | ok step =>
          dsimp only
          split
          · exact still_pure _
          · split
            · exact still_raise fun e' he => nomatch he
            · split
              · exact still_pure _
              · exact still_pure _

theorem runs_send (hrow : seen.orders.find? record.orderId = some record) (hsent : record.submittedAt.isSome)
    (checksPerformed : List String) :
    Runs none seen (send (σ := RecordStore durable) record checksPerformed) := by
  refine runs_submit hrow hsent fun w r hg hanswered hzero => ?_
  cases r with
  | error e =>
      dsimp only
      split
      · refine runs_still (still_perform (f := .utcnow) trivial) fun now => ?_
        refine runs_unknown fun _ w _ => ?_
        exact runs_get fun _ _ _ _ _ he => nomatch he
      · exact fun e' he => hanswered e' (by cases he; rfl)
  | ok view =>
      refine runs_still (still_perform (f := .utcnow) trivial) fun now => ?_
      obtain ⟨b, hb, hsucc⟩ := hg.orders record.orderId record hrow
      have hsaid : Said w.venue b.clientOrderId view := by
        rw [hsucc.clientOrderId]
        exact hanswered
      exact runs_acknowledged hb hsaid hzero fun _ _ _ _ he => nomatch he

theorem runs_stamp (hstate : o.state = .validating) (hs : o.submittedAt = none) (checksPerformed : List String)
    (now : Timestamp) :
    Runs (some o) seen (do
      let _ ← perform (.transact (markSubmitting (σ := RecordStore durable) o.orderId now))
      let found ← perform (.transact (OrderRepository.get o.orderId))
      send (found.getD o) checksPerformed) := by
  refine runs_own none (fun r => withMove r .submitted now (some now)) (fun s hl => ?_) (fun s p hl hp => ?_)
    (fun {_ _} h => ⟨h.submitting hs, rfl, rfl, le_rfl, fun hs => ⟨rfl, rfl⟩⟩) (fun _ hn => nomatch hn) fun seen hrow => ?_
  · exact legal_write (by rw [hstate]; rfl) hl
  · exact eq_of_puts hl (move_ok.mp hp)
  · refine runs_get fun w _ hg _ => ?_
    obtain ⟨b, hb, hsucc⟩ := hg.orders o.orderId _ hrow
    rw [hb]
    have hid : b.orderId = o.orderId := orderId_of_find? hb
    exact runs_send (hid ▸ hb) (hsucc.sent rfl).1 checksPerformed

theorem runs_place (request : TestnetOrderRequest) (symbol : String) (ho : o.orderId = record.orderId)
    (hstate : o.state = .validating) (hs : o.submittedAt = none) {leverage : Decimal} (hl : 0 < leverage)
    (checksPerformed : List String) (now : Timestamp) :
    Runs (some o) seen (place (σ := RecordStore durable) request symbol record leverage checksPerformed now) := by
  refine runs_still (size_still symbol request.margin leverage) ?_
  rintro (_ | ⟨quantity, price⟩)
  · exact runs_rejected ho hstate hs _ _ now _ _
  · rw [← ho]
    refine runs_get fun w _ _ howns => ?_
    rw [(howns o rfl).1]
    refine runs_own (some (withExecution o quantity leverage now))
      (fun r => withExecution r quantity leverage now) (fun s _ => update_not_illegal _ s) (fun s p _ hp => ?_)
      (fun {_ _} h => ⟨?_, rfl, rfl, le_rfl, fun hsent => ?_⟩) (fun o' ho' => ?_) fun seen _ => ?_
    · exact (update_ok.mp hp).2.2
    · refine h.drafted hs hs (by rw [withExecution, hstate]; decide) rfl rfl rfl rfl fun l he => ?_
      cases he
      exact hl
    · rw [hs] at hsent
      cases hsent
    · cases ho'
      exact ⟨rfl, hs⟩
    · exact runs_stamp (o := withExecution o quantity leverage now) hstate hs checksPerformed now

theorem runs_confirmMargin (request : TestnetOrderRequest) (symbol : String) (ho : o.orderId = record.orderId)
    (hstate : o.state = .validating) (hs : o.submittedAt = none) {leverage : Decimal} (hl : 0 < leverage)
    (checksPerformed : List String) (now : Timestamp) :
    Runs (some o) seen
      (confirmMargin (σ := RecordStore durable) request symbol record leverage checksPerformed now) := by
  have hestablished : Still durable venueId (do
      let _ ← perform (.setMarginMode symbol .isolated)
      perform (.marginMode symbol) : ServiceM (RecordStore durable) MarginMode) :=
    Still.bind (still_perform (f := .setMarginMode symbol .isolated) trivial)
      fun _ => still_perform (f := .marginMode symbol) trivial
  refine runs_caught hestablished ?_
  rintro (e | confirmed) hharmless
  · dsimp only
    split
    · exact runs_rejected ho hstate hs _ _ now _ _
    · exact fun e' he => hharmless e' (by cases he; rfl)
  · dsimp only
    split
    · exact runs_rejected ho hstate hs _ _ now _ _
    · exact runs_place request symbol ho hstate hs hl checksPerformed now

theorem runs_confirmLeverage (request : TestnetOrderRequest) (symbol : String) (ho : o.orderId = record.orderId)
    (hstate : o.state = .validating) (hs : o.submittedAt = none) {approvedLeverage : Decimal}
    (hl : 0 < approvedLeverage) (checksPerformed : List String) (now : Timestamp) :
    Runs (some o) seen
      (confirmLeverage (σ := RecordStore durable) request symbol record approvedLeverage checksPerformed now) := by
  have hset : Still durable venueId
      (perform (.setLeverage symbol approvedLeverage) : ServiceM (RecordStore durable) Decimal) :=
    still_perform (f := .setLeverage symbol approvedLeverage) trivial
  refine runs_caught hset ?_
  rintro (e | applied) hharmless
  · dsimp only
    split
    · exact runs_rejected ho hstate hs _ _ now _ _
    · exact fun e' he => hharmless e' (by cases he; rfl)
  · dsimp only
    split
    · exact runs_rejected ho hstate hs _ _ now _ _
    · rename_i he
      rw [not_not.mp he]
      exact runs_confirmMargin request symbol ho hstate hs hl checksPerformed now

theorem runs_submitRuled (request : TestnetOrderRequest) (symbol : String) (ho : o.orderId = record.orderId)
    (hstate : o.state = .validating) (hs : o.submittedAt = none) (now : Timestamp) :
    Runs (some o) seen (submitRuled (σ := RecordStore durable) request symbol record now) := by
  refine runs_still (still_perform (f := .rule request record now) trivial) ?_
  rintro ⟨_ | verdict, detail⟩
  · exact runs_rejected ho hstate hs _ _ now _ _
  · dsimp only
    split
    · exact runs_rejected ho hstate hs _ _ now _ _
    · cases happroved : verdict.leverage.approvedLeverage with
      | none => exact runs_rejected ho hstate hs _ _ now _ _
      | some approvedLeverage =>
          have hmin : 1 ≤ approvedLeverage := verdict.leverage.approvedLeverage_min approvedLeverage happroved
          exact runs_confirmLeverage request symbol ho hstate hs (lt_of_lt_of_le one_pos hmin) _ now

theorem runs_createOrGet {intent : OrderIntent} {k : OrderRecord × Bool → ServiceM (RecordStore durable) β}
    (hreplay : ∀ w record, Grows seen w → Runs none w (k (record, false)))
    (hcreated : ∀ (w : RacingWorld durable venueId) orderId, Runs (some (build orderId intent)) w (k (build orderId intent, true))) :
    Runs none seen (perform (.createOrGet intent) >>= k) := by
  apply Safe.bind
  apply Safe.perform
  rintro w r w' hi ⟨hg, ho⟩ ⟨⟨⟨orderId, hid, hx⟩, hages, _⟩, horderly⟩
  have hlegal : Legal (createOrGet orderId intent w.orders) := legal_addOrGet (build orderId intent) w.orders
  obtain ⟨g', hm, hk⟩ := runs_commits (k := k) hi hg ho hx hages horderly.takesKnown hlegal fun a t ht => by
    rcases addOrGet_ok.mp ht with ⟨existing, _, _, he⟩ | ⟨hclient, _, _, he⟩
    · cases he
      exact ⟨none, turns_refl hi ho, hreplay w existing hg⟩
    · cases he
      refine ⟨some (build orderId intent), ⟨preserves_create hi hid hclient, fun o' ho' => ?_, fun o' ho' => ?_⟩,
        hcreated _ orderId⟩
      · cases ho'
        exact ⟨find?_put_self w.orders (build orderId intent), rfl⟩
      · cases ho'
        exact .inr hid
  refine ⟨g', hm, ?_⟩
  cases r with
  | ok a => exact hk
  | error e => exact hk

theorem runs_submitCall (service : TestnetExecutionService) (request : TestnetOrderRequest) :
    Runs none seen (TestnetService.submit (σ := RecordStore durable) service request) := by
  refine runs_still (still_perform (f := .utcnow) trivial) fun now => ?_
  dsimp only
  split
  · exact fun _ he => nomatch he
  · refine runs_caught (still_perform (f := .requireOneWayMode) trivial) ?_
    rintro (e | _) hharmless
    · cases e <;> first | exact fun e' he => hharmless e' (by cases he; rfl) | exact fun _ he => nomatch he
    · refine runs_createOrGet (fun _ _ _ _ he => nomatch he) fun _ orderId => ?_
      have hbuilt : (build orderId (submitIntent service request (Runtime.upper request.symbol) now)).submittedAt = none :=
        rfl
      refine runs_own (some (withMove (build orderId (submitIntent service request
          (Runtime.upper request.symbol) now)) .validating now none)) (fun r => withMove r .validating now none)
        (fun s hl => legal_write rfl hl) (fun s p hl hp => ?_)
        (fun {_ _} h => ⟨?_, rfl, rfl, le_rfl, fun hs => ⟨?_, rfl⟩⟩) (fun o' ho' => ?_) fun _ _ => ?_
      · exact eq_of_puts hl (move_ok.mp hp)
      · exact h.drafted hbuilt (by simp [withMove, hbuilt]) (by simp [withMove]) rfl rfl rfl rfl h.venueLeverage
      · simp [withMove, hs]
      · cases ho'
        exact ⟨rfl, rfl⟩
      · refine runs_submitRuled request _ ?_ ?_ ?_ now
        · rfl
        · rfl
        · exact hbuilt

end Submit

theorem runs_cancelCall (orderId : String) : Runs none seen (TestnetService.cancel (σ := RecordStore durable) orderId) := by
  refine runs_get fun w _ _ _ => ?_
  cases hrow : w.orders.find? orderId with
  | none => exact fun _ he => nomatch he
  | some record =>
      dsimp only
      split
      · exact fun _ he => nomatch he
      · refine runs_still (still_perform (f := .utcnow) trivial) fun now => ?_
        refine safe_asked (f := .cancel record.intent.symbol record.clientOrderId) trivial ?_
        intro w' r hi hg hanswered hharmless
        rw [← orderId_of_find? hrow] at hrow ⊢
        cases r with
        | error e =>
            dsimp only
            split
            · refine runs_unknown fun _ _ _ => ?_
              exact runs_get fun _ _ _ _ _ he => nomatch he
            · exact fun e' he => hharmless e' (by cases he; rfl)
        | ok view =>
            obtain ⟨b, hb, hsucc⟩ := hg.orders record.orderId record hrow
            have hsaid : Said w'.venue b.clientOrderId view := by
              rw [hsucc.clientOrderId]
              exact hanswered
            have hsent : b.submittedAt.isSome := by
              obtain ⟨placed, hplaced, _⟩ := hsaid
              have htracks := hi.rows record.orderId b hb
              rw [hplaced] at htracks
              exact htracks.standing.1
            refine runs_reconcile hb hsent (fun view' hview => ?_) fun _ _ _ _ he => nomatch he
            cases hview
            exact hsaid

section Sweep

/-- What the candidates of a sweep were answered. -/
def Heard (candidates : List OrderRecord) (w : RacingWorld durable venueId) (answers : Answers) : Prop :=
  ∀ a ∈ answers, ∃ r ∈ candidates, r.orderId = a.1 ∧ ∀ view ∈ a.2, Said w.venue r.clientOrderId view

omit [Runtime] in
theorem Heard.grows {candidates : List OrderRecord} {answers : Answers} (h : Heard candidates w answers)
    (hg : Grows w w') : Heard candidates w' answers := by
  intro a ha
  obtain ⟨r, hr, hid, hsaid⟩ := h a ha
  exact ⟨r, hr, hid, fun view hview => hg.said (hsaid view hview)⟩

theorem safe_queryAll {candidates rs : List OrderRecord} {answers : Answers} (unreachable : List String)
    (hsub : ∀ r ∈ rs, r ∈ candidates) (hheard : Heard candidates seen answers) :
    protocol.Safe orderly (queryAll (σ := RecordStore durable) rs answers unreachable) (none, seen)
      (fun r g => g.1 = none ∧ Grows seen g.2 ∧
        match r with
        | .ok p => Heard candidates g.2 p.1
        | .error e => ∀ error, e ≠ .order (.illegalTransition error)) := by
  induction rs generalizing answers unreachable seen with
  | nil => exact ⟨rfl, .refl seen, hheard⟩
  | cons r rest ih =>
      have hrest : ∀ q ∈ rest, q ∈ candidates := fun q hq => hsub q (List.mem_cons_of_mem r hq)
      refine safe_asked (f := .query r.intent.symbol r.clientOrderId) trivial ?_
      intro w answer _ hg hanswered hharmless
      cases answer with
      | error e =>
          dsimp only
          split
          · refine (ih _ hrest (hheard.grows hg)).mono fun _ _ h => ⟨h.1, hg.trans h.2.1, h.2.2⟩
          · exact ⟨rfl, hg, fun error he => hharmless error (by rw [he])⟩
      | ok view =>
          refine (ih _ hrest fun a ha => ?_).mono fun _ _ h => ⟨h.1, hg.trans h.2.1, h.2.2⟩
          rcases List.mem_append.mp ha with ha | ha
          · exact hheard.grows hg a ha
          · cases List.mem_singleton.mp ha
            refine ⟨r, hsub r (List.mem_cons_self ..), rfl, fun v hv => ?_⟩
            cases hv
            exact hanswered

/-- These orders were sent, and are still stored. -/
def Sent (rs : List OrderRecord) (w : RacingWorld durable venueId) : Prop :=
  ∀ r ∈ rs, ∃ b, w.orders.find? r.orderId = some b ∧ Succeeds r b ∧ b.submittedAt.isSome

omit [Runtime] in
theorem Sent.grows {rs : List OrderRecord} (h : Sent rs w) (hg : Grows w w') : Sent rs w' := by
  intro r hr
  obtain ⟨b, hb, hsucc, hs⟩ := h r hr
  obtain ⟨b', hb', hsucc'⟩ := hg.orders r.orderId b hb
  exact ⟨b', hb', hsucc.trans hsucc', (hsucc'.sent hs).1⟩

theorem runs_recordReset {rs : List OrderRecord} (hsent : Sent rs seen) (vanished : Nat) (now : Timestamp)
    {orderIds : List String} (hids : ∀ orderId ∈ orderIds, ∃ r ∈ rs, r.orderId = orderId) :
    Runs none seen (recordReset (σ := RecordStore durable) vanished now orderIds) := by
  induction orderIds generalizing seen with
  | nil => exact fun _ he => nomatch he
  | cons orderId rest ih =>
      obtain ⟨r, hr, rfl⟩ := hids orderId (List.mem_cons_self ..)
      obtain ⟨b, hb, _, hbs⟩ := hsent r hr
      refine runs_lands (fun w hi hg _ => ⟨legal_recordUnreadable _ _ now w.orders, fun a t ht => ?_⟩) fun _ w hg => ?_
      · obtain ⟨_, c, hc, he⟩ := recordUnreadable_ok.mp ht
        cases he
        obtain ⟨b', hb', hsucc⟩ := hg.orders r.orderId b hb
        cases hc.symm.trans hb'
        refine ⟨c, withUnreadable c (resetDetail vanished) now, by rw [orderId_of_find? hc, hc], (hsucc.sent hbs).1, ?_, ?_,
          rfl⟩
        · exact (hi.rows r.orderId c hc).annotate ..
        · exact succeeds_annotate ..
      · exact ih (hsent.grows hg) fun orderId ho => hids orderId (List.mem_cons_of_mem _ ho)

theorem runs_settleAll {candidates rs : List OrderRecord} {answers : Answers} (unreachable : List String)
    (now : Timestamp) (resolved : Nat) (hsub : ∀ r ∈ rs, r ∈ candidates) (hsent : Sent candidates seen)
    (hheard : Heard candidates seen answers) :
    Runs none seen (settleAll (σ := RecordStore durable) answers unreachable now rs resolved) := by
  induction rs generalizing resolved seen with
  | nil => exact fun _ he => nomatch he
  | cons r rest ih =>
      obtain ⟨b, hb, hsucc, hbs⟩ := hsent r (hsub r (List.mem_cons_self ..))
      have hrest : ∀ q ∈ rest, q ∈ candidates := fun q hq => hsub q (List.mem_cons_of_mem r hq)
      unfold settleAll
      split
      · refine runs_reconcile hb hbs (fun _ hview => nomatch hview) fun _ w hg => ?_
        exact ih _ hrest (hsent.grows hg) (hheard.grows hg)
      · refine runs_reconcile hb hbs (fun view hview => ?_) fun _ w hg => ?_
        · obtain ⟨before, after, he, _⟩ := List.lookup_eq_some_iff.mp (Option.join_eq_some_iff.mp hview)
          have hmem : (r.orderId, some view) ∈ answers := he ▸ List.mem_append_right before (List.mem_cons_self ..)
          obtain ⟨q, hq, hid, hsaid⟩ := hheard _ hmem
          obtain ⟨c, hc, hqc, _⟩ := hsent q hq
          rw [hid] at hc
          cases hc.symm.trans hb
          rw [hqc.clientOrderId]
          exact hsaid view rfl
        · exact ih _ hrest (hsent.grows hg) (hheard.grows hg)

theorem runs_conclude {candidates : List OrderRecord} {answers : Answers} (unreachable : List String)
    (now : Timestamp) (hsent : Sent candidates seen) (hheard : Heard candidates seen answers) :
    Runs none seen (conclude (σ := RecordStore durable) candidates answers unreachable now) := by
  unfold conclude
  dsimp only
  split
  · refine runs_returns (runs_recordReset hsent _ now fun orderId ho => ?_) _
    obtain ⟨a, ha, rfl⟩ := List.mem_map.mp ho
    obtain ⟨r, hr, hid, _⟩ := hheard a (List.mem_filter.mp ha).1
    exact ⟨r, hr, hid⟩
  · exact runs_returns (runs_settleAll unreachable now 0 (fun _ hr => hr) hsent hheard) _

theorem runs_reconcileAll : Runs none seen (TestnetService.reconcileAll (σ := RecordStore durable)) := by
  refine runs_still (still_perform (f := .utcnow) trivial) fun now => ?_
  refine runs_transact fun w hi hg ho _ => ⟨(fun _ he => nomatch he), fun scan t ht => ?_⟩
  cases ht
  refine ⟨none, turns_refl hi ho, ?_⟩
  have hsent : Sent (w.orders.scan.records.filter (fun r => r.reachedVenue && !r.isTerminal)) w := by
    intro r hr
    obtain ⟨hscan, hreached⟩ := List.mem_filter.mp hr
    have hrow : w.orders.find? r.orderId = some r := mem_rows_iff.mp ((mem_scan_records ..).mp hscan).1
    have hs : r.submittedAt.isSome := ((Bool.and_eq_true _ _).mp hreached).1
    exact ⟨r, hrow, .refl r, hs⟩
  apply Safe.bind
  refine (safe_queryAll [] (fun _ hr => hr) (fun _ ha => absurd ha List.not_mem_nil)).mono fun r g hqueried => ?_
  obtain ⟨own, w'⟩ := g
  obtain ⟨hnone, hgrown, hheard⟩ := hqueried
  cases hnone
  cases r with
  | ok p => exact runs_conclude p.2 now (hsent.grows hgrown) hheard
  | error e => exact fun error he => hheard error (by cases he; rfl)

end Sweep

def emptyWorld : RacingWorld durable venueId where
  orders := empty

theorem runs_body (call : Call) :
    Runs none (emptyWorld : RacingWorld durable venueId) (call.body : ServiceM (RecordStore durable) Unit) := by
  cases call with
  | submit service request => exact runs_returns (runs_submitCall service request) fun _ => ()
  | cancel orderId => exact runs_returns (runs_cancelCall orderId) fun _ => ()
  | reconcileAll => exact runs_returns runs_reconcileAll fun _ => ()

theorem calls_begin {c : ServiceM (RecordStore durable) Unit} (h : Calls c) :
    (protocol : Protocol (RacingWorld durable venueId) _).Begins orderly Harmless c := by
  obtain ⟨call, rfl⟩ := h
  refine ⟨(none, emptyWorld), fun w => ⟨⟨fun _ _ hr => ?_, (fun _ _ hp => nomatch hp)⟩, (fun _ ho => nomatch ho)⟩,
    (fun _ _ ho => nomatch ho), runs_body call⟩
  cases hr

end Effects

end Aetheris.RacingRuns
