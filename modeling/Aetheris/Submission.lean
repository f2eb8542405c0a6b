import Aetheris.TestnetWorld
import Aetheris.Recovery

namespace Aetheris.Submission

open Lib Coroutine Protocol Money Clock Enums OrderRecords OrderMachine OrderStore OrderEngine OrderCalls OrderIdentity
open RecordStore TestnetService TestnetWorld Recovery

variable {durable : Bool}

/-- The venue has said of this order that it is in the state it is in. -/
def Said (said : List (OrderRecord × VenueOrderView)) (r : OrderRecord) : Prop :=
  ∃ a ∈ said, a.1.orderId = r.orderId ∧ r.state = a.2.state

structure Unexecuted (r : OrderRecord) : Prop where
  filledQuantity : r.filledQuantity = 0
  averageFillPrice : r.averageFillPrice = none
  fills : r.fills = []
  venueLeverage : ∀ l ∈ r.venueLeverage, 0 < l

/-- A record that only calls of `submit` have written. -/
structure Young (said : List (OrderRecord × VenueOrderView)) (r : OrderRecord) : Prop extends Unexecuted r where
  unsent : r.submittedAt = none → r.state = .created ∨ r.state = .validating ∨ r.state = .rejected
  sent : r.submittedAt.isSome → r.state = .submitted ∨ r.state = .unknown ∨ Said said r
  underway : Underway r

inductive Stage
  | unsent | stamped | sent | answered (view : VenueOrderView)

def Stage.Fits (w : World durable) (r : OrderRecord) : Stage → Prop
  | unsent => r.submittedAt = none ∧ ∀ q ∈ w.sent, q.clientOrderId ≠ r.clientOrderId
  | stamped => r.submittedAt.isSome ∧ ∀ q ∈ w.sent, q.clientOrderId ≠ r.clientOrderId
  | sent => r.submittedAt.isSome
  | answered view => r.submittedAt.isSome ∧ ∃ a ∈ w.said, a.1.orderId = r.orderId ∧ a.2 = view

/-- The order a call has created, which it alone may write and send. -/
structure Duty where
  orderId : String
  clientOrderId : String
  stage : Stage

def Holds : Option Duty → World durable → Prop
  | none, _ => True
  | some d, w => ∃ r, w.orders.find? d.orderId = some r ∧ r.clientOrderId = d.clientOrderId ∧
      Young w.said r ∧ d.stage.Fits w r

def Apart : Option Duty → Option Duty → Prop
  | some d, some e => d.orderId ≠ e.orderId ∧ d.clientOrderId ≠ e.clientOrderId
  | _, _ => True

/-- No identity has been sent twice, and a record that was sent is stored as sent. -/
structure Inv (old : RecordStore durable) (w : World durable) : Prop where
  once : (w.sent.map OrderRecord.clientOrderId).Nodup
  sent : ∀ q ∈ w.sent, ∃ r, w.orders.find? q.orderId = some r ∧ r.clientOrderId = q.clientOrderId ∧
    Young w.said r ∧ r.submittedAt.isSome
  said : ∀ a ∈ w.said, a.1 ∈ w.sent
  rows : ∀ orderId r, w.orders.find? orderId = some r → old.find? orderId = some r ∨ Young w.said r

def protocol (old : RecordStore durable) : Protocol (World durable) (Option Duty) where
  inv := Inv old
  holds := Holds
  apart := Apart
  apart_symm := by
    rintro (_ | d) (_ | e) h
    · trivial
    · trivial
    · trivial
    · exact ⟨h.1.symm, h.2.symm⟩

theorem Said.mono {said more : List (OrderRecord × VenueOrderView)} {r : OrderRecord} (h : Said said r) :
    Said (said ++ more) r := by
  obtain ⟨a, ha, hr⟩ := h
  exact ⟨a, List.mem_append_left more ha, hr⟩

theorem Young.mono {said more : List (OrderRecord × VenueOrderView)} {r : OrderRecord} (h : Young said r) :
    Young (said ++ more) r :=
  { h with sent := fun hs => (h.sent hs).imp_right fun hr => hr.imp_right Said.mono }

theorem Young.of_unsent {said said' : List (OrderRecord × VenueOrderView)} {r : OrderRecord} (h : Young said r)
    (hr : r.submittedAt = none) : Young said' r :=
  { h with sent := fun hs => by rw [hr] at hs; cases hs }

theorem Young.said_of_terminal {said : List (OrderRecord × VenueOrderView)} {r : OrderRecord} (h : Young said r)
    (hs : r.submittedAt.isSome) (hterminal : r.isTerminal) : Said said r := by
  rw [OrderRecord.isTerminal] at hterminal
  rcases h.sent hs with hr | hr | hr
  · rw [hr] at hterminal
    cases hterminal
  · rw [hr] at hterminal
    cases hterminal
  · exact hr

theorem young_build [Runtime] (said : List (OrderRecord × VenueOrderView)) (orderId : String) (intent : OrderIntent) :
    Young said (build orderId intent) where
  toUnexecuted := ⟨rfl, rfl, rfl, by simp [build]⟩
  unsent := fun _ => .inl rfl
  sent := fun hs => by cases hs
  underway := fun hs => by cases hs

section

variable {said : List (OrderRecord × VenueOrderView)} {r : OrderRecord} {now : Timestamp}

theorem Young.validating (h : Young said r) (hr : r.submittedAt = none) :
    Young said (withMove r .validating now none) where
  toUnexecuted := ⟨h.filledQuantity, h.averageFillPrice, h.fills, h.venueLeverage⟩
  unsent := fun _ => .inr (.inl rfl)
  sent := fun hs => absurd hs (by simp [withMove, hr])
  underway := fun hs => absurd hs (by simp [OrderRecord.reachedVenue, withMove, hr])

theorem Young.rejected (h : Young said r) (hr : r.submittedAt = none) (code : RiskRejectionCode) (detail : String) :
    Young said (withRiskRejection r code detail now) where
  toUnexecuted := ⟨h.filledQuantity, h.averageFillPrice, h.fills, h.venueLeverage⟩
  unsent := fun _ => .inr (.inr rfl)
  sent := fun hs => absurd hs (by simp [withRiskRejection, hr])
  underway := fun _ => ⟨by simp [withRiskRejection], by simp [withRiskRejection]⟩

theorem Young.sized (h : Young said r) (quantity : { q : Decimal // 0 < q }) {leverage : Decimal}
    (hl : 0 < leverage) : Young said (withExecution r quantity leverage now) where
  toUnexecuted := ⟨h.filledQuantity, h.averageFillPrice, h.fills, fun l he => by cases he; exact hl⟩
  unsent := h.unsent
  sent := h.sent
  underway := h.underway.of_eq rfl rfl

theorem Young.submitting (h : Young said r) :
    Young said (withMove r .submitted now (some now)) where
  toUnexecuted := ⟨h.filledQuantity, h.averageFillPrice, h.fills, h.venueLeverage⟩
  unsent := fun hs => by cases hs
  sent := fun _ => .inl rfl
  underway := fun _ => ⟨by simp [withMove], by simp [withMove]⟩

theorem Young.unknown (h : Young said r) (hr : r.submittedAt.isSome) (reason : String) :
    Young said (withUnknown r reason now) where
  toUnexecuted := ⟨h.filledQuantity, h.averageFillPrice, h.fills, h.venueLeverage⟩
  unsent := fun hs => absurd hr (by simp [show r.submittedAt = none from hs])
  sent := fun _ => .inr (.inl rfl)
  underway := fun _ => ⟨by simp [withUnknown], by simp [withUnknown]⟩

theorem Young.acknowledged (h : Young said r) (hr : r.submittedAt.isSome) (venueOrderId : String)
    {view : VenueOrderView} (hv : ∃ a ∈ said, a.1.orderId = r.orderId ∧ a.2 = view)
    (hc : canTransition r.state view.state) :
    Young said (withAck r venueOrderId view.state now) where
  toUnexecuted := ⟨h.filledQuantity, h.averageFillPrice, h.fills, h.venueLeverage⟩
  unsent := fun hs => absurd hr (by simp [show r.submittedAt = none from hs])
  sent := fun _ => by
    obtain ⟨a, ha, hid, rfl⟩ := hv
    exact .inr (.inr ⟨a, ha, hid, rfl⟩)
  underway := h.underway.move rfl hc

end

variable {old : RecordStore durable} {w : World durable}

theorem Stage.Fits.sent_or_fresh {stage : Stage} {r : OrderRecord} (h : stage.Fits w r) :
    r.submittedAt.isSome ∨ ∀ q ∈ w.sent, q.clientOrderId ≠ r.clientOrderId := by
  cases stage with
  | unsent => exact .inr h.2
  | stamped => exact .inl h.1
  | sent => exact .inl h
  | answered view => exact .inl h.1

theorem moves_refl {g : Option Duty} (hi : Inv old w) (hg : Holds g w) : (protocol old).Moves g w g w where
  inv := hi
  holds := hg
  frame := fun _ _ hh => hh
  apart := fun _ ha _ => ha

theorem moves_put {d : Duty} {stage : Stage} {r' : OrderRecord} (hi : Inv old w) (hd : Holds (some d) w)
    (hid : r'.orderId = d.orderId) (hc : r'.clientOrderId = d.clientOrderId) (hy : Young w.said r')
    (hf : stage.Fits w r') :
    (protocol old).Moves (some d) w (some ⟨d.orderId, d.clientOrderId, stage⟩) (w.commit (w.orders.put r')) := by
  obtain ⟨r, hr, hrc, _, _⟩ := hd
  have hself : (w.orders.put r').find? d.orderId = some r' := by rw [← hid, find?_put_self]
  have hother : ∀ {orderId}, d.orderId ≠ orderId → (w.orders.put r').find? orderId = w.orders.find? orderId :=
    fun hne => find?_put_of_ne w.orders (by rw [hid]; exact hne)
  constructor
  · refine ⟨hi.once, fun q hq => ?_, hi.said, fun orderId b hb => ?_⟩
    · obtain ⟨b, hb, hbc, hby, hbs⟩ := hi.sent q hq
      by_cases he : d.orderId = q.orderId
      · rw [← he, hr] at hb
        cases hb
        refine ⟨r', he ▸ hself, hc.trans (hrc.symm.trans hbc), hy, ?_⟩
        rcases hf.sent_or_fresh with hs | hn
        · exact hs
        · exact absurd (hbc.symm.trans (hrc.trans hc.symm)) (hn q hq)
      · exact ⟨b, (hother he).trans hb, hbc, hby, hbs⟩
    · by_cases he : d.orderId = orderId
      · subst he
        cases hself.symm.trans hb
        exact .inr hy
      · exact hi.rows orderId b ((hother he).symm.trans hb)
  · exact ⟨r', hself, hc, hy, hf⟩
  · rintro (_ | e) ha hh
    · trivial
    · obtain ⟨b, hb, hbc, hby, hbf⟩ := hh
      exact ⟨b, (hother ha.1).trans hb, hbc, hby, hbf⟩
  · rintro (_ | e) ha _
    · trivial
    · exact ha

/-- A new order is its creator's: nobody else knows its ids. -/
theorem moves_create [Runtime] {orderId : String} {intent : OrderIntent} (hi : Inv old w)
    (hid : w.orders.find? orderId = none)
    (hc : w.orders.findByClientId (clientOrderId intent.accountId intent.intentKey) = none) :
    (protocol old).Moves none w
      (some ⟨orderId, clientOrderId intent.accountId intent.intentKey, .unsent⟩)
      (w.commit (w.orders.put (build orderId intent))) := by
  have hne : ∀ {other r}, w.orders.find? other = some r → orderId ≠ other := by
    rintro other r hr rfl
    rw [hid] at hr
    cases hr
  have hfresh : ∀ {other r}, w.orders.find? other = some r →
      r.clientOrderId ≠ clientOrderId intent.accountId intent.intentKey :=
    fun hr => clientOrderId_ne_of_findByClientId hc _ (mem_of_find? hr)
  have hself : (w.orders.put (build orderId intent)).find? orderId = some (build orderId intent) :=
    find?_put_self w.orders (build orderId intent)
  have hother : ∀ {other r}, w.orders.find? other = some r →
      (w.orders.put (build orderId intent)).find? other = some r := by
    intro other r hr
    have hput : (build orderId intent).orderId ≠ other := hne hr
    exact (find?_put_of_ne w.orders hput).trans hr
  constructor
  · refine ⟨hi.once, fun q hq => ?_, hi.said, fun other b hb => ?_⟩
    · obtain ⟨b, hb, hrest⟩ := hi.sent q hq
      exact ⟨b, hother hb, hrest⟩
    · by_cases he : orderId = other
      · subst he
        cases hself.symm.trans hb
        exact .inr (young_build _ _ _)
      · have hput : (build orderId intent).orderId ≠ other := he
        exact hi.rows other b ((find?_put_of_ne w.orders hput).symm.trans hb)
  · refine ⟨build orderId intent, hself, rfl, young_build _ _ _, rfl, fun q hq => ?_⟩
    obtain ⟨b, hb, hbc, _⟩ := hi.sent q hq
    exact hbc ▸ hfresh hb
  · rintro (_ | e) _ hh
    · trivial
    · obtain ⟨b, hb, hrest⟩ := hh
      exact ⟨b, hother hb, hrest⟩
  · rintro (_ | e) _ hh
    · trivial
    · obtain ⟨b, hb, hbc, _⟩ := hh
      exact ⟨hne hb, fun he => hfresh hb (hbc.trans he.symm)⟩

section

variable {record row b : OrderRecord} (r : Except ServiceError VenueOrderView)

theorem receive_orders : (w.receive record r).orders = w.orders := by cases r <;> rfl

theorem receive_sent : (w.receive record r).sent = w.sent ++ [record] := by cases r <;> rfl

theorem receive_said (w : World durable) (record : OrderRecord) (r : Except ServiceError VenueOrderView) :
    ∃ more, (w.receive record r).said = w.said ++ more ∧ ∀ a ∈ more, a.1 = record := by
  cases r with
  | ok view => exact ⟨[(record, view)], rfl, by simp⟩
  | error e => exact ⟨[], (List.append_nil _).symm, by simp⟩

theorem Young.receive (h : Young w.said b) : Young (w.receive record r).said b := by
  obtain ⟨more, hsaid, _⟩ := receive_said w record r
  rw [hsaid]
  exact h.mono

/-- A record that is stored as sent, under an identity that was never sent, may be sent. -/
theorem inv_receive (hi : Inv old w) (hrow : w.orders.find? record.orderId = some row)
    (hrc : row.clientOrderId = record.clientOrderId) (hy : Young w.said row) (hs : row.submittedAt.isSome)
    (hnew : ∀ q ∈ w.sent, q.clientOrderId ≠ record.clientOrderId) : Inv old (w.receive record r) := by
  refine ⟨?_, fun q hq => ?_, fun a ha => ?_, fun orderId b hb => ?_⟩
  · rw [receive_sent, List.map_append, List.map_singleton, List.nodup_append]
    refine ⟨hi.once, List.nodup_singleton _, ?_⟩
    rintro _ ha _ hb rfl
    obtain ⟨q, hq, he⟩ := List.mem_map.mp ha
    exact hnew q hq (he.trans (List.mem_singleton.mp hb))
  · rw [receive_sent, List.mem_append, List.mem_singleton] at hq
    rw [receive_orders]
    rcases hq with hq | rfl
    · obtain ⟨b, hb, hbc, hby, hbs⟩ := hi.sent q hq
      exact ⟨b, hb, hbc, hby.receive r, hbs⟩
    · exact ⟨row, hrow, hrc, hy.receive r, hs⟩
  · obtain ⟨more, hsaid, hmore⟩ := receive_said w record r
    rw [hsaid, List.mem_append] at ha
    rw [receive_sent, List.mem_append, List.mem_singleton]
    exact ha.imp (hi.said a) (hmore a)
  · rw [receive_orders] at hb
    exact (hi.rows orderId b hb).imp_right fun hy => hy.receive r

/-- Sending one order is no other order's stage. -/
theorem Stage.Fits.receive {stage : Stage} (h : stage.Fits w b) (hne : record.clientOrderId ≠ b.clientOrderId) :
    stage.Fits (w.receive record r) b := by
  have hfresh : (∀ q ∈ w.sent, q.clientOrderId ≠ b.clientOrderId) →
      ∀ q ∈ (w.receive record r).sent, q.clientOrderId ≠ b.clientOrderId := by
    intro hold q hq
    rw [receive_sent, List.mem_append, List.mem_singleton] at hq
    rcases hq with hq | rfl
    · exact hold q hq
    · exact hne
  cases stage with
  | unsent => exact ⟨h.1, hfresh h.2⟩
  | stamped => exact ⟨h.1, hfresh h.2⟩
  | sent => exact h
  | answered view =>
      obtain ⟨hs, a, ha, hrest⟩ := h
      obtain ⟨more, hsaid, _⟩ := receive_said w record r
      refine ⟨hs, a, ?_, hrest⟩
      rw [hsaid]
      exact List.mem_append_left more ha

theorem moves_receive {d : Duty} (hi : Inv old w) (hd : Holds (some d) w) (hstage : d.stage = .stamped)
    (hid : record.orderId = d.orderId) (hc : record.clientOrderId = d.clientOrderId) :
    (protocol old).Moves (some d) w
      (some ⟨d.orderId, d.clientOrderId, match r with | .ok view => .answered view | .error _ => .sent⟩)
      (w.receive record r) := by
  obtain ⟨row, hrow, hrc, hy, hf⟩ := hd
  rw [hstage] at hf
  obtain ⟨hstamp, hnew⟩ := hf
  have hsame : row.clientOrderId = record.clientOrderId := hrc.trans hc.symm
  constructor
  · exact inv_receive r hi (hid ▸ hrow) hsame hy hstamp (hsame ▸ hnew)
  · refine ⟨row, by rw [receive_orders, hrow], hrc, hy.receive r, ?_⟩
    cases r with
    | ok view =>
        exact ⟨hstamp, (record, view), List.mem_append_right _ (List.mem_singleton_self _),
          hid.trans (orderId_of_find? hrow).symm, rfl⟩
    | error e => exact hstamp
  · rintro (_ | e) ha hh
    · trivial
    · obtain ⟨b, hb, hbc, hby, hbf⟩ := hh
      refine ⟨b, by rw [receive_orders, hb], hbc, hby.receive r, hbf.receive r ?_⟩
      rw [hc, hbc]
      exact ha.2
  · rintro (_ | e) ha _
    · trivial
    · exact ha

end

section

variable [Runtime] {α β : Type} (old)

abbrev Runs (g : Option Duty) (c : ServiceM (RecordStore durable) α) : Prop :=
  (protocol old).Safe exec c g (fun _ _ => True)

/-- A part of a call that leaves its order, and the world, alone. -/
def Still (c : ServiceM (RecordStore durable) α) : Prop :=
  ∀ g, (protocol old).Safe exec c g (fun _ g' => g' = g)

variable {old} {g : Option Duty}

theorem still_perform (f : Effect (RecordStore durable) α)
    (hf : ∀ (w : World durable) r w', exec f w r w' → w' = w) : Still old (perform f) := by
  intro g
  apply Safe.perform
  intro w r w' hi hg hx
  rw [hf w r w' hx]
  exact ⟨g, moves_refl hi hg, rfl⟩

theorem Still.bind {c : ServiceM (RecordStore durable) α} {k : α → ServiceM (RecordStore durable) β}
    (hc : Still old c) (hk : ∀ a, Still old (k a)) : Still old (c >>= k) := by
  intro g
  apply Safe.bind
  refine (hc g).mono fun r g' hg => ?_
  rw [hg]
  cases r with
  | ok a => exact hk a g
  | error e => rfl

theorem Still.caught {c : ServiceM (RecordStore durable) α} (hc : Still old c) : Still old c.caught :=
  fun g => Safe.caught (hc g)

theorem runs_still {c : ServiceM (RecordStore durable) α} {k : α → ServiceM (RecordStore durable) β}
    (hc : Still old c) (hk : ∀ a, Runs old g (k a)) : Runs old g (c >>= k) := by
  apply Safe.bind
  refine (hc g).mono fun r g' hg => ?_
  rw [hg]
  cases r with
  | ok a => exact hk a
  | error e => trivial

theorem runs_commits {step : OrderM (RecordStore durable) α} {r : Except ServiceError α} {w' : World durable}
    {k : α → ServiceM (RecordStore durable) β} (hi : Inv old w) (hg : Holds g w) (hx : Commits step w r w')
    (h : ∀ a t, step w.orders = .ok (a, t) →
      ∃ g', (protocol old).Moves g w g' (w.commit t) ∧ Runs old g' (k a)) :
    ∃ g', (protocol old).Moves g w g' w' ∧ ∀ a, r = .ok a → Runs old g' (k a) := by
  unfold Commits at hx
  cases hstep : step w.orders with
  | ok p =>
      obtain ⟨a, t⟩ := p
      rw [hstep] at hx
      obtain ⟨g', hm, hk⟩ := h a t hstep
      rcases hx with ⟨rfl, rfl⟩ | ⟨⟨message, rfl⟩, rfl | rfl⟩
      · exact ⟨g', hm, fun _ he => by cases he; exact hk⟩
      · exact ⟨g, moves_refl hi hg, fun _ he => nomatch he⟩
      · exact ⟨g', hm, fun _ he => nomatch he⟩
  | error e =>
      rw [hstep] at hx
      obtain ⟨rfl | ⟨message, rfl⟩, rfl⟩ := hx
      · exact ⟨g, moves_refl hi hg, fun _ he => nomatch he⟩
      · exact ⟨g, moves_refl hi hg, fun _ he => nomatch he⟩

theorem runs_transact {step : OrderM (RecordStore durable) α} {k : α → ServiceM (RecordStore durable) β}
    (h : ∀ (w : World durable) a t, Inv old w → Holds g w → step w.orders = .ok (a, t) →
      ∃ g', (protocol old).Moves g w g' (w.commit t) ∧ Runs old g' (k a)) :
    Runs old g (perform (.transact step) >>= k) := by
  apply Safe.bind
  apply Safe.perform
  intro w r w' hi hg hx
  obtain ⟨g', hm, hk⟩ := runs_commits hi hg hx fun a t hs => h w a t hi hg hs
  refine ⟨g', hm, ?_⟩
  cases r with
  | ok a => exact hk a rfl
  | error e => trivial

theorem runs_write {d : Duty} {step : OrderM (RecordStore durable) OrderRecord} (stage : Stage)
    (write : OrderRecord → OrderRecord) {k : OrderRecord → ServiceM (RecordStore durable) β}
    (hstep : ∀ s p, step s = .ok p →
      ∃ r, Loads s d.orderId r ∧ canTransition r.state (write r).state ∧ Puts s (write r) p)
    (hid : ∀ r, (write r).orderId = r.orderId) (hc : ∀ r, (write r).clientOrderId = r.clientOrderId)
    (hwrite : ∀ (w : World durable) r, Young w.said r → d.stage.Fits w r → canTransition r.state (write r).state →
      Young w.said (write r) ∧ stage.Fits w (write r))
    (hk : ∀ a, Runs old (some ⟨d.orderId, d.clientOrderId, stage⟩) (k a)) :
    Runs old (some d) (perform (.transact step) >>= k) := by
  apply runs_transact
  intro w a t hi hg hs
  obtain ⟨r, hl, hmove, _, hp⟩ := hstep w.orders (a, t) hs
  cases hp
  obtain ⟨b, hb, hbc, hy, hf⟩ := hg
  cases hl.1.symm.trans hb
  obtain ⟨hy', hf'⟩ := hwrite w r hy hf hmove
  exact ⟨_, moves_put hi ⟨r, hb, hbc, hy, hf⟩ ((hid r).trans hl.orderId) ((hc r).trans hbc) hy' hf', hk _⟩

theorem runs_get {d : Duty} {k : Option OrderRecord → ServiceM (RecordStore durable) β}
    (hk : ∀ (w : World durable) r, Holds (some d) w → r.orderId = d.orderId → r.clientOrderId = d.clientOrderId →
      Young w.said r → d.stage.Fits w r → Runs old (some d) (k (some r))) :
    Runs old (some d) (perform (.transact (OrderRepository.get d.orderId)) >>= k) := by
  apply runs_transact
  intro w a t hi hg hs
  obtain ⟨_, he⟩ := get_ok.mp hs
  cases he
  obtain ⟨r, hr, hrc, hy, hf⟩ := hg
  rw [hr]
  have hg : Holds (some d) w := ⟨r, hr, hrc, hy, hf⟩
  exact ⟨some d, moves_refl hi hg, hk w r hg (orderId_of_find? hr) hrc hy hf⟩

/-- The order of a call, named by the record it carries. -/
def Names (record : OrderRecord) (stage : Stage) : Option Duty :=
  some ⟨record.orderId, record.clientOrderId, stage⟩

variable {record : OrderRecord} {checksPerformed : List String} {now : Timestamp}

theorem rejected_runs (record : OrderRecord) (code : RiskRejectionCode) (detail : String) (now : Timestamp)
    (rejectionCode : Option RiskRejectionCode) (checksPerformed : List String) :
    Runs old (Names record .unsent)
      (rejected (σ := RecordStore durable) record code detail now rejectionCode checksPerformed) := by
  apply runs_write .unsent (fun r => withRiskRejection r code detail now)
  · exact fun s p hp => markRiskRejected_ok.mp hp
  · exact fun _ => rfl
  · exact fun _ => rfl
  · exact fun w r hy hf _ => ⟨hy.rejected hf.1 code detail, hf⟩
  · intro a
    exact runs_get fun _ _ _ _ _ _ _ => trivial

theorem size_still (symbol : String) (margin leverage : Decimal) :
    Still old (size (σ := RecordStore durable) symbol margin leverage) := by
  refine Still.bind (still_perform (.lastPrice symbol) fun _ _ _ hx => hx) ?_
  intro price
  cases price with
  | none => exact fun _ => rfl
  | some price =>
      refine Still.bind (Still.caught (still_perform (.stepSize symbol) fun _ _ _ hx => hx)) ?_
      intro step
      cases step with
      | error e =>
          dsimp only
          split
          · exact fun _ => rfl
          · exact fun _ => rfl
      | ok step =>
          dsimp only
          split
          · exact fun _ => rfl
          · split
            · exact fun _ => rfl
            · split
              · exact fun _ => rfl
              · exact fun _ => rfl

theorem send_runs (record : OrderRecord) (checksPerformed : List String) :
    Runs old (Names record .stamped) (send (σ := RecordStore durable) record checksPerformed) := by
  apply Safe.bind
  apply Safe.caught
  apply Safe.perform
  intro w r w' hi hg hx
  cases hx
  refine ⟨_, moves_receive _ hi hg rfl rfl rfl, ?_⟩
  cases r with
  | error e =>
      dsimp only
      split
      · refine runs_still (still_perform .utcnow fun _ _ _ hx => hx) ?_
        intro now
        apply runs_write .sent (fun r => withUnknown r _ now)
        · exact fun s p hp => markUnknown_ok.mp hp
        · exact fun _ => rfl
        · exact fun _ => rfl
        · exact fun w r hy hf _ => ⟨hy.unknown hf _, hf⟩
        · intro a
          exact runs_get fun _ _ _ _ _ _ _ => trivial
      · trivial
  | ok view =>
      refine runs_still (still_perform .utcnow fun _ _ _ hx => hx) ?_
      intro now
      apply runs_write (.answered view) (fun r => withAck r (view.venueOrderId.getD "") view.state now)
      · exact fun s p hp => applyVenueAck_ok.mp hp
      · exact fun _ => rfl
      · exact fun _ => rfl
      · exact fun w r hy hf hc => ⟨hy.acknowledged hf.1 _ hf.2 hc, hf⟩
      · exact fun _ => trivial

omit [Runtime] in
theorem names_congr {record other : OrderRecord} (hid : other.orderId = record.orderId)
    (hc : other.clientOrderId = record.clientOrderId) (stage : Stage) : Names record stage = Names other stage := by
  rw [Names, Names, hid, hc]

theorem stamp_runs (record : OrderRecord) (checksPerformed : List String) (now : Timestamp) :
    Runs old (Names record .unsent) (do
      let _ ← perform (.transact (markSubmitting (σ := RecordStore durable) record.orderId now))
      let found ← perform (.transact (OrderRepository.get record.orderId))
      send (found.getD record) checksPerformed) := by
  apply runs_write .stamped (fun r => withMove r .submitted now (some now))
  · exact fun s p hp => move_ok.mp hp
  · exact fun _ => rfl
  · exact fun _ => rfl
  · exact fun w r hy hf _ => ⟨hy.submitting, rfl, hf.2⟩
  · intro _
    apply runs_get
    intro _ r _ hid hc _ _
    change Runs old (Names record .stamped) (send r checksPerformed)
    rw [names_congr hid hc]
    exact send_runs r checksPerformed

theorem place_runs (request : TestnetOrderRequest) (symbol : String) (record : OrderRecord) {leverage : Decimal}
    (hl : 0 < leverage) (checksPerformed : List String) (now : Timestamp) :
    Runs old (Names record .unsent)
      (place (σ := RecordStore durable) request symbol record leverage checksPerformed now) := by
  refine runs_still (size_still symbol request.margin leverage) ?_
  rintro (_ | ⟨quantity, price⟩)
  · exact rejected_runs record _ _ now _ _
  · apply runs_get
    intro _ r _ hid hc hy hf
    apply runs_transact
    intro w a t hi hg hs
    obtain ⟨_, _, he⟩ := update_ok.mp hs
    cases he
    have hfresh : Stage.unsent.Fits w (withExecution r quantity leverage now) := by
      obtain ⟨b, _, hbc, _, _, hnew⟩ := hg
      exact ⟨hf.1, fun q hq => (hbc.trans hc.symm) ▸ hnew q hq⟩
    refine ⟨_, moves_put hi hg hid hc ((hy.of_unsent hf.1).sized quantity hl) hfresh, ?_⟩
    have hnames : Names record .unsent = Names (withExecution r quantity leverage now) .unsent :=
      names_congr hid hc .unsent
    change Runs old (Names record .unsent) _
    rw [hnames]
    exact stamp_runs (withExecution r quantity leverage now) checksPerformed now

theorem confirmMargin_runs (request : TestnetOrderRequest) (symbol : String) (record : OrderRecord)
    {leverage : Decimal} (hl : 0 < leverage) (checksPerformed : List String) (now : Timestamp) :
    Runs old (Names record .unsent)
      (confirmMargin (σ := RecordStore durable) request symbol record leverage checksPerformed now) := by
  have hestablished : Still old (do
      let _ ← perform (.setMarginMode symbol .isolated)
      perform (.marginMode symbol) : ServiceM (RecordStore durable) MarginMode) :=
    Still.bind (still_perform (.setMarginMode symbol .isolated) fun _ _ _ hx => hx)
      fun _ => still_perform (.marginMode symbol) fun _ _ _ hx => hx
  refine runs_still hestablished.caught ?_
  rintro (e | confirmed)
  · dsimp only
    split
    · exact rejected_runs record _ _ now _ _
    · trivial
  · dsimp only
    split
    · exact rejected_runs record _ _ now _ _
    · exact place_runs request symbol record hl checksPerformed now

theorem confirmLeverage_runs (request : TestnetOrderRequest) (symbol : String) (record : OrderRecord)
    {approvedLeverage : Decimal} (hl : 0 < approvedLeverage) (checksPerformed : List String) (now : Timestamp) :
    Runs old (Names record .unsent)
      (confirmLeverage (σ := RecordStore durable) request symbol record approvedLeverage checksPerformed now) := by
  refine runs_still (Still.caught (still_perform (.setLeverage symbol approvedLeverage) fun _ _ _ hx => hx)) ?_
  rintro (e | applied)
  · dsimp only
    split
    · exact rejected_runs record _ _ now _ _
    · trivial
  · dsimp only
    split
    · exact rejected_runs record _ _ now _ _
    · rename_i he
      rw [not_not.mp he]
      exact confirmMargin_runs request symbol record hl checksPerformed now

theorem submitRuled_runs (request : TestnetOrderRequest) (symbol : String) (record : OrderRecord) (now : Timestamp) :
    Runs old (Names record .unsent) (submitRuled (σ := RecordStore durable) request symbol record now) := by
  refine runs_still (still_perform (.rule request record now) fun _ _ _ hx => hx) ?_
  rintro ⟨_ | verdict, detail⟩
  · exact rejected_runs record _ _ now _ _
  · dsimp only
    split
    · exact rejected_runs record _ _ now _ _
    · cases happroved : verdict.leverage.approvedLeverage with
      | none => exact rejected_runs record _ _ now _ _
      | some approvedLeverage =>
          have hmin : 1 ≤ approvedLeverage := verdict.leverage.approvedLeverage_min approvedLeverage happroved
          exact confirmLeverage_runs request symbol record (lt_of_lt_of_le one_pos hmin) _ now

theorem runs_createOrGet {intent : OrderIntent} {k : OrderRecord × Bool → ServiceM (RecordStore durable) β}
    (hreplay : ∀ record, Runs old none (k (record, false)))
    (hcreated : ∀ orderId, Runs old (Names (build orderId intent) .unsent) (k (build orderId intent, true))) :
    Runs old none (perform (.createOrGet intent) >>= k) := by
  apply Safe.bind
  apply Safe.perform
  rintro w r w' hi hg ⟨orderId, hid, hx⟩
  have hmoves : ∃ g', (protocol old).Moves none w g' w' ∧ ∀ a, r = .ok a → Runs old g' (k a) := by
    have hnone : Holds none w := trivial
    refine runs_commits hi hnone hx fun a t hs => ?_
    rcases addOrGet_ok.mp hs with ⟨existing, _, _, he⟩ | ⟨hc, _, _, he⟩
    · cases he
      exact ⟨none, moves_refl hi hnone, hreplay existing⟩
    · cases he
      exact ⟨_, moves_create hi hid hc, hcreated orderId⟩
  obtain ⟨g', hm, hk⟩ := hmoves
  refine ⟨g', hm, ?_⟩
  cases r with
  | ok a => exact hk a rfl
  | error e => trivial

/-- A call starts with nothing of its own, and may send only what it then creates. -/
theorem submit_runs (service : TestnetExecutionService) (request : TestnetOrderRequest) :
    Runs old none (submit (σ := RecordStore durable) service request) := by
  refine runs_still (still_perform .utcnow fun _ _ _ hx => hx) fun now => ?_
  dsimp only
  split
  · trivial
  · refine runs_still (Still.caught (still_perform .requireOneWayMode fun _ _ _ hx => hx)) ?_
    rintro (e | _)
    · cases e <;> trivial
    · apply runs_createOrGet
      · exact fun _ => trivial
      · intro orderId
        apply runs_write .unsent (fun r => withMove r .validating now none)
        · exact fun s p hp => move_ok.mp hp
        · exact fun _ => rfl
        · exact fun _ => rfl
        · exact fun w r hy hf _ => ⟨hy.validating hf.1, by simpa [withMove] using hf.1, hf.2⟩
        · exact fun _ => submitRuled_runs request _ _ now

theorem submits_idle (old : RecordStore durable) :
    ∀ c : ServiceM (RecordStore durable) TestnetOrderResult, Submits c → (protocol old).Idle exec c := by
  rintro c ⟨service, request, rfl⟩
  exact ⟨none, fun _ => trivial, fun _ => trivial, submit_runs service request⟩

theorem submits_inv {orders : RecordStore durable}
    {c : World durable × List (ServiceM (RecordStore durable) TestnetOrderResult)}
    (h : Reachable exec Submits ⟨orders, [], []⟩ c) : Inv orders c.1 := by
  refine (protocol orders).reachable_inv (submits_idle orders) ?_ h
  exact ⟨List.nodup_nil, fun _ hq => absurd hq List.not_mem_nil, fun _ ha => absurd ha List.not_mem_nil,
    fun _ _ hr => .inl hr⟩

end

structure Recorded (r : OrderRecord) (view : VenueOrderView) : Prop where
  filledQuantity : r.filledQuantity = view.filledQuantity
  averageFillPrice : 0 < view.filledQuantity → r.averageFillPrice = view.averageFillPrice

instance (r : OrderRecord) (view : VenueOrderView) : Decidable (Recorded r view) :=
  decidable_of_iff (r.filledQuantity = view.filledQuantity ∧
      (0 < view.filledQuantity → r.averageFillPrice = view.averageFillPrice))
    ⟨fun ⟨a, b⟩ => ⟨a, b⟩, fun ⟨a, b⟩ => ⟨a, b⟩⟩

theorem Unexecuted.recorded_iff {r : OrderRecord} (h : Unexecuted r) (view : VenueOrderView) :
    Recorded r view ↔ view.filledQuantity = 0 := by
  constructor
  · intro hr
    rw [← hr.filledQuantity, h.filledQuantity]
  · intro hz
    exact ⟨h.filledQuantity.trans hz.symm, fun hpos => absurd hz hpos.ne'⟩

def exampleRequest : TestnetOrderRequest where
  symbol := "BTCUSDT"
  side := .buy
  margin := 10
  requestedLeverage := 5
  stopLossPercent := 2
  intentKey := "k1"

def exampleSubmit : ServiceM (RecordStore true) TestnetOrderResult :=
  @submit _ _ referenceRuntime ⟨"acct", true⟩ exampleRequest

def afterSubmit (venue : Except ServiceError VenueOrderView) (w : World true) : World true :=
  (exampleSubmit.interp (@grants referenceRuntime venue) w).2

def ReachableFromEmpty (w : World true) : Prop :=
  ∃ pool, Reachable (@exec true referenceRuntime) (@Submits true referenceRuntime) ⟨empty, [], []⟩ (w, pool)

theorem afterSubmit_reachable (venue : Except ServiceError VenueOrderView) {w : World true}
    (h : ReachableFromEmpty w) : ReachableFromEmpty (afterSubmit venue w) := by
  obtain ⟨pool, h⟩ := h
  exact ⟨_, reachable_interp _ _ (@exec_grants referenceRuntime venue) h ⟨⟨"acct", true⟩, exampleRequest, rfl⟩⟩

def filledView : VenueOrderView := OrderWrites.exampleView .filled (1 / 2) OrderWrites.halfUnit_pos

/-- However many calls race, crash and are retried, an identity is sent at most once. -/
theorem sent_at_most_once [Runtime] (orders : RecordStore durable) (w : World durable)
    (pool : List (ServiceM (RecordStore durable) TestnetOrderResult))
    (h : Reachable exec Submits ⟨orders, [], []⟩ (w, pool)) (clientOrderId : String) :
    (w.sent.filter (fun q => q.clientOrderId = clientOrderId)).length ≤ 1 := by
  have hcount := List.nodup_iff_count_le_one.mp (submits_inv h).once clientOrderId
  rw [List.count_eq_countP, List.countP_map, List.countP_eq_length_filter] at hcount
  refine le_of_eq_of_le ?_ hcount
  congr 1

theorem sent_at_most_once_replayedSubmit :
    ∃ w : World true, ReachableFromEmpty w ∧ w.sent.length = 1 ∧
      (w.sent.filter (fun q => q.clientOrderId = "aeth-26e742032342c67b1c32")).length ≤ 1 := by
  obtain ⟨pool, h⟩ := afterSubmit_reachable (.ok filledView) (afterSubmit_reachable (.ok filledView) ⟨[], .refl⟩)
  exact ⟨_, ⟨pool, h⟩, by decide +kernel, @sent_at_most_once true referenceRuntime _ _ _ h _⟩

/-- An acknowledgement books nothing, so an answer is on record exactly if it reports no execution. -/
theorem acknowledged_execution_iff [Runtime] (orders : RecordStore durable) (w : World durable)
    (pool : List (ServiceM (RecordStore durable) TestnetOrderResult))
    (h : Reachable exec Submits ⟨orders, [], []⟩ (w, pool)) (record : OrderRecord) (view : VenueOrderView)
    (hsaid : (record, view) ∈ w.said) :
    ∃ r, w.orders.find? record.orderId = some r ∧ r.clientOrderId = record.clientOrderId ∧
      (Recorded r view ↔ view.filledQuantity = 0) := by
  have hinv := submits_inv h
  obtain ⟨r, hr, hc, hy, _⟩ := hinv.sent record (hinv.said _ hsaid)
  exact ⟨r, hr, hc, hy.toUnexecuted.recorded_iff view⟩

theorem acknowledged_execution_iff_filled :
    ∃ w : World true, ∃ a ∈ w.said, a.2 = filledView ∧
      ∃ r, w.orders.find? a.1.orderId = some r ∧ r.clientOrderId = a.1.clientOrderId ∧
        (Recorded r a.2 ↔ a.2.filledQuantity = 0) := by
  obtain ⟨pool, h⟩ := afterSubmit_reachable (.ok filledView) ⟨[], .refl⟩
  have hsaid : ∃ a ∈ (afterSubmit (.ok filledView) ⟨empty, [], []⟩).said, a.2 = filledView := by decide +kernel
  obtain ⟨⟨record, view⟩, hsaid, hview⟩ := hsaid
  exact ⟨_, (record, view), hsaid, hview, @acknowledged_execution_iff true referenceRuntime _ _ _ h record view hsaid⟩

/-- Filled in the acknowledgement: the record is FILLED and holds nothing. -/
theorem filledAtAck_lost :
    ∃ w : World true, ReachableFromEmpty w ∧ ∃ a ∈ w.said, ∃ r ∈ w.orders.find? a.1.orderId,
      r.state = .filled ∧ ¬ Recorded r a.2 :=
  ⟨_, afterSubmit_reachable (.ok filledView) ⟨[], .refl⟩, by decide +kernel⟩

end Aetheris.Submission
