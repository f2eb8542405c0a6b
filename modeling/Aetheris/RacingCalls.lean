import Aetheris.TestnetWorld
import Aetheris.TrackedRecords

namespace Aetheris.RacingCalls

open Lib Coroutine Clock Enums OrderRecords OrderMachine OrderStore OrderEngine OrderCalls OrderIdentity
open RecordStore Settlement TestnetService VenueHistory TrackedRecords

/-- The service's side, and the venue's. -/
structure RacingWorld (durable : Bool) (venueId : String ↪ String) extends TestnetWorld.World durable where
  venue : Venue venueId := fun _ => none

variable {durable : Bool} {venueId : String ↪ String} {α β : Type}

def Said (venue : Venue venueId) (clientOrderId : String) (view : VenueOrderView) : Prop :=
  ∃ placed, venue clientOrderId = some placed ∧ view ∈ placed.views

/-- An answer is one the venue has given by now, however long ago. An order it has it
may not have had when it was asked. No adapter raises the order machine's own error. -/
def Answered : {β : Type} → Effect (RecordStore durable) β → Except ServiceError β → Venue venueId → Prop
  | _, .transact _, _, _ | _, .createOrGet _, _, _ => True
  | _, .submit record, .ok view, venue => Said venue record.clientOrderId view
  | _, .query _ clientOrderId, .ok (some view), venue => Said venue clientOrderId view
  | _, .cancel _ clientOrderId, .ok view, venue => Said venue clientOrderId view
  | _, _, .error e, _ => ∀ error, e ≠ .order (.illegalTransition error)
  | _, _, .ok _, _ => True

section

variable [Runtime]

/-- The venue moves on at every step, and may take an order long after it was sent. -/
def exec : Semantics (Effect (RecordStore durable)) ServiceError (RacingWorld durable venueId)
  | _, f, w, r, w' =>
      TestnetWorld.exec f w.toWorld r w'.toWorld ∧ Ages w'.sent w.venue w'.venue ∧ Answered f r w'.venue

inductive Call
  | submit (service : TestnetExecutionService) (request : TestnetOrderRequest)
  | cancel (orderId : String)
  | reconcileAll

def Call.body : Call → ServiceM (RecordStore durable) Unit
  | submit service request => do
      let _ ← TestnetService.submit service request
      return ()
  | cancel orderId => do
      let _ ← TestnetService.cancel orderId
      return ()
  | reconcileAll => do
      let _ ← TestnetService.reconcileAll
      return ()

def Calls (c : ServiceM (RecordStore durable) Unit) : Prop := ∃ call : Call, c = call.body

end

/-- What a call brings to a record without looking at it first. -/
inductive Landing
  | acknowledged (state : OrderState)
  | unknown
  | absent

inductive Lands : {β : Type} → Effect (RecordStore durable) β → String → Landing → Prop
  | acknowledged (orderId venueOrderId : String) (state : OrderState) (now : Timestamp) :
      Lands (.transact (applyVenueAck orderId venueOrderId state now)) orderId (.acknowledged state)
  | unknown (orderId reason : String) (now : Timestamp) :
      Lands (.transact (markUnknown orderId reason now)) orderId .unknown
  | absent (orderId : String) (now : Timestamp) :
      Lands (.transact (OrderEngine.reconcile orderId none true now)) orderId .absent

/-- The record has an edge to where it was acknowledged, and only an order the
venue has not got is given up or missed. -/
def Landing.Fits (w : RacingWorld durable venueId) (r : OrderRecord) : Landing → Prop
  | acknowledged state => canTransition r.state state
  | unknown => r.state = .submitted ∧ w.venue r.clientOrderId = none
  | absent => w.venue r.clientOrderId = none

def Unexecuted : {β : Type} → Effect (RecordStore durable) β → Except ServiceError β → Prop
  | _, .submit _, .ok view => view.filledQuantity = 0
  | _, _, _ => True

/-- The venue takes no order that is given up here. -/
def TakesKnown (w w' : RacingWorld durable venueId) : Prop :=
  ∀ orderId r, w'.orders.find? orderId = some r → w.venue r.clientOrderId = none →
    (w'.venue r.clientOrderId).isSome → r.state ≠ .unknown

structure Orderly (f : Effect (RecordStore durable) β) (w : RacingWorld durable venueId) (r : Except ServiceError β)
    (w' : RacingWorld durable venueId) : Prop where
  lands : ∀ orderId landing, Lands f orderId landing → ∀ record, w.orders.find? orderId = some record →
    landing.Fits w record
  unexecuted : Unexecuted f r
  takesKnown : TakesKnown w w'

def orderly [Runtime] : Semantics (Effect (RecordStore durable)) ServiceError (RacingWorld durable venueId)
  | _, f, w, r, w' => exec f w r w' ∧ Orderly f w r w'

/-- Every stored order is as the venue has it or once had it, under an identity of
its own, and the venue has orders of this store only. -/
structure Agrees (w : RacingWorld durable venueId) : Prop where
  rows : ∀ orderId r, w.orders.find? orderId = some r → Tracks (w.venue r.clientOrderId) r
  clients : ∀ orderId other r b, w.orders.find? orderId = some r → w.orders.find? other = some b →
    r.clientOrderId = b.clientOrderId → orderId = other
  sent : ∀ q ∈ w.sent, ∃ r, w.orders.find? q.orderId = some r ∧ r.clientOrderId = q.clientOrderId ∧
    r.submittedAt.isSome ∧ r.intent.quantity = q.intent.quantity
  placed : ∀ clientOrderId placed, w.venue clientOrderId = some placed →
    ∃ orderId r, w.orders.find? orderId = some r ∧ r.clientOrderId = clientOrderId

/-- What was stored and said before is still there, or followed by something newer. -/
structure Grows (w w' : RacingWorld durable venueId) : Prop where
  orders : ∀ orderId r, w.orders.find? orderId = some r → ∃ r', w'.orders.find? orderId = some r' ∧ Succeeds r r'
  venue : ∀ clientOrderId placed, w.venue clientOrderId = some placed →
    ∃ longer, w'.venue clientOrderId = some longer ∧ placed.Extends longer

theorem Grows.refl (w : RacingWorld durable venueId) : Grows w w where
  orders := fun _ r hr => ⟨r, hr, .refl r⟩
  venue := fun _ placed h => ⟨placed, h, .refl placed⟩

theorem Grows.trans {a b c : RacingWorld durable venueId} (h : Grows a b) (h' : Grows b c) : Grows a c where
  orders := fun orderId r hr => by
    obtain ⟨r₁, hr₁, hs₁⟩ := h.orders orderId r hr
    obtain ⟨r₂, hr₂, hs₂⟩ := h'.orders orderId r₁ hr₁
    exact ⟨r₂, hr₂, hs₁.trans hs₂⟩
  venue := fun clientOrderId placed hp => by
    obtain ⟨p₁, hp₁, he₁⟩ := h.venue clientOrderId placed hp
    obtain ⟨p₂, hp₂, he₂⟩ := h'.venue clientOrderId p₁ hp₁
    exact ⟨p₂, hp₂, he₁.trans he₂⟩

theorem Grows.said {w w' : RacingWorld durable venueId} (h : Grows w w') {clientOrderId : String}
    {view : VenueOrderView} (hs : Said w.venue clientOrderId view) : Said w'.venue clientOrderId view := by
  obtain ⟨placed, hp, hview⟩ := hs
  obtain ⟨longer, hl, he⟩ := h.venue clientOrderId placed hp
  exact ⟨longer, hl, he.2.subset hview⟩

/-- What a step of a call that owns this draft keeps. -/
structure Preserves (own : Option OrderRecord) (w w' : RacingWorld durable venueId) : Prop where
  agrees : Agrees w'
  grows : Grows w w'
  drafts : ∀ r, w.orders.find? r.orderId = some r → r.submittedAt = none → (∀ o ∈ own, o.orderId ≠ r.orderId) →
    w'.orders.find? r.orderId = some r

variable {own : Option OrderRecord} {w w' w₁ : RacingWorld durable venueId}

theorem Preserves.trans (h : Preserves own w w₁) (h' : Preserves own w₁ w') : Preserves own w w' where
  agrees := h'.agrees
  grows := h.grows.trans h'.grows
  drafts := fun r hr hs hown => h'.drafts r (h.drafts r hr hs hown) hs hown

theorem preserves_refl (h : Agrees w) : Preserves own w w := ⟨h, .refl w, fun _ hr _ _ => hr⟩

theorem preserves_ages (h : Agrees w) {venue : Venue venueId} (hages : Ages w.sent w.venue venue)
    (hknown : TakesKnown w { w with venue := venue }) : Preserves own w { w with venue := venue } where
  agrees := by
    refine ⟨fun orderId r hr => ?_, h.clients, h.sent, fun clientOrderId placed hp => ?_⟩
    · have htracks := h.rows orderId r hr
      change Tracks (venue r.clientOrderId) r
      cases hbefore : w.venue r.clientOrderId with
      | some placed =>
          obtain ⟨longer, hlonger, he⟩ := hages.keeps _ placed hbefore
          rw [hbefore] at htracks
          rw [hlonger]
          exact htracks.extends he
      | none =>
          rw [hbefore] at htracks
          cases hafter : venue r.clientOrderId with
          | none => exact htracks
          | some placed =>
              obtain ⟨q, hq, hc, hquantity⟩ := hages.takes _ placed hbefore hafter
              obtain ⟨b, hb, hbc, hsent, hbq⟩ := h.sent q hq
              cases h.clients _ _ b r hb hr (hbc.trans hc)
              cases hb.symm.trans hr
              have hsome : (venue r.clientOrderId).isSome := by rw [hafter]; rfl
              exact htracks.taken hsent (hbq.trans hquantity) (hknown _ r hr hbefore hsome)
    · cases hbefore : w.venue clientOrderId with
      | some old => exact h.placed clientOrderId old hbefore
      | none =>
          obtain ⟨q, hq, hc, _⟩ := hages.takes _ placed hbefore hp
          obtain ⟨b, hb, hbc, _⟩ := h.sent q hq
          exact ⟨q.orderId, b, hb, hbc.trans hc⟩
  grows := ⟨fun _ r hr => ⟨r, hr, .refl r⟩, hages.keeps⟩
  drafts := fun _ hr _ _ => hr

/-- The world with these orders stored. -/
def RacingWorld.commit (w : RacingWorld durable venueId) (orders : RecordStore durable) : RacingWorld durable venueId :=
  { w with orders := orders }

theorem preserves_put {r r' : OrderRecord} (h : Agrees w) (hr : w.orders.find? r.orderId = some r)
    (htracks : Tracks (w.venue r.clientOrderId) r') (hs : Succeeds r r')
    (hown : r.submittedAt.isSome ∨ own = some r) : Preserves own w (w.commit (w.orders.put r')) := by
  have hself : (w.orders.put r').find? r.orderId = some r' := by rw [← hs.orderId, find?_put_self]
  have hother : ∀ {orderId}, r.orderId ≠ orderId → (w.orders.put r').find? orderId = w.orders.find? orderId :=
    fun hne => find?_put_of_ne w.orders (by rw [hs.orderId]; exact hne)
  have hcases : ∀ orderId b, (w.orders.put r').find? orderId = some b →
      r.orderId = orderId ∧ b = r' ∨ r.orderId ≠ orderId ∧ w.orders.find? orderId = some b := by
    intro orderId b hb
    by_cases he : r.orderId = orderId
    · subst he
      exact .inl ⟨rfl, Option.some.inj (hb.symm.trans hself)⟩
    · exact .inr ⟨he, (hother he).symm.trans hb⟩
  have hkept : ∀ orderId b, w.orders.find? orderId = some b →
      ∃ b', (w.orders.put r').find? orderId = some b' ∧ Succeeds b b' := by
    intro orderId b hb
    by_cases he : r.orderId = orderId
    · subst he
      cases hr.symm.trans hb
      exact ⟨r', hself, hs⟩
    · exact ⟨b, (hother he).trans hb, .refl b⟩
  refine ⟨⟨fun orderId b hb => ?_, fun orderId other b c hb hc he => ?_, fun q hq => ?_, fun _ placed hp => ?_⟩,
    ⟨hkept, fun _ placed hp => ⟨placed, hp, .refl placed⟩⟩, fun b hb hbs hne => ?_⟩
  · rcases hcases orderId b hb with ⟨_, rfl⟩ | ⟨_, hb⟩
    · change Tracks (w.venue b.clientOrderId) b
      rw [hs.clientOrderId]
      exact htracks
    · exact h.rows orderId b hb
  · have hbefore : ∀ {orderId b}, (w.orders.put r').find? orderId = some b →
        ∃ a, w.orders.find? orderId = some a ∧ a.clientOrderId = b.clientOrderId := by
      intro orderId b hb
      rcases hcases orderId b hb with ⟨rfl, rfl⟩ | ⟨_, hb⟩
      · exact ⟨r, hr, hs.clientOrderId.symm⟩
      · exact ⟨b, hb, rfl⟩
    obtain ⟨b₀, hb₀, hbc⟩ := hbefore hb
    obtain ⟨c₀, hc₀, hcc⟩ := hbefore hc
    exact h.clients orderId other b₀ c₀ hb₀ hc₀ (hbc.trans (he.trans hcc.symm))
  · obtain ⟨b, hb, hbc, hsent, hquantity⟩ := h.sent q hq
    obtain ⟨b', hb', hsucc⟩ := hkept q.orderId b hb
    obtain ⟨hsent', hsame⟩ := hsucc.sent hsent
    exact ⟨b', hb', hsucc.clientOrderId.trans hbc, hsent', hsame.trans hquantity⟩
  · obtain ⟨orderId, b, hb, hbc⟩ := h.placed _ placed hp
    obtain ⟨b', hb', hsucc⟩ := hkept orderId b hb
    exact ⟨orderId, b', hb', hsucc.clientOrderId.trans hbc⟩
  · have he : r.orderId ≠ b.orderId := by
      rcases hown with hsent | rfl
      · intro he
        rw [← he, hr] at hb
        cases hb
        rw [hbs] at hsent
        cases hsent
      · exact hne r rfl
    exact (hother he).trans hb

/-- A new order is its creator's draft: nobody else has its ids. -/
theorem preserves_create [Runtime] (h : Agrees w) {orderId : String} {intent : OrderIntent}
    (hid : w.orders.find? orderId = none)
    (hclient : w.orders.findByClientId (clientOrderId intent.accountId intent.intentKey) = none) :
    Preserves own w (w.commit (w.orders.put (build orderId intent))) := by
  have hne : ∀ {other r}, w.orders.find? other = some r → orderId ≠ other := by
    rintro other r hr rfl
    rw [hid] at hr
    cases hr
  have hfresh : ∀ {other r}, w.orders.find? other = some r →
      r.clientOrderId ≠ clientOrderId intent.accountId intent.intentKey :=
    fun hr => clientOrderId_ne_of_findByClientId hclient _ (mem_of_find? hr)
  have hself : (w.orders.put (build orderId intent)).find? orderId = some (build orderId intent) :=
    find?_put_self w.orders (build orderId intent)
  have hother : ∀ {other}, orderId ≠ other →
      (w.orders.put (build orderId intent)).find? other = w.orders.find? other := by
    intro other hother
    have hput : (build orderId intent).orderId ≠ other := hother
    exact find?_put_of_ne w.orders hput
  have hkept : ∀ {other r}, w.orders.find? other = some r →
      (w.orders.put (build orderId intent)).find? other = some r := fun hr => (hother (hne hr)).trans hr
  have hcases : ∀ {other b}, (w.orders.put (build orderId intent)).find? other = some b →
      orderId = other ∧ b = build orderId intent ∨ w.orders.find? other = some b := by
    intro other b hb
    by_cases he : orderId = other
    · subst he
      exact .inl ⟨rfl, Option.some.inj (hb.symm.trans hself)⟩
    · exact .inr ((hother he).symm.trans hb)
  refine ⟨⟨fun other b hb => ?_, fun first second b c hb hc he => ?_, fun q hq => ?_, fun _ placed hp => ?_⟩,
    ⟨fun other r hr => ⟨r, hkept hr, .refl r⟩, fun _ placed hp => ⟨placed, hp, .refl placed⟩⟩,
    fun b hb _ _ => hkept hb⟩
  · rcases hcases hb with ⟨_, rfl⟩ | hb
    · change Tracks (w.venue (clientOrderId intent.accountId intent.intentKey)) (build orderId intent)
      cases hplaced : w.venue (clientOrderId intent.accountId intent.intentKey) with
      | none => exact tracks_build orderId intent
      | some placed =>
          obtain ⟨other, r, hr, hc⟩ := h.placed _ placed hplaced
          exact absurd hc (hfresh hr)
    · exact h.rows other b hb
  · rcases hcases hb with ⟨rfl, rfl⟩ | hb
    · rcases hcases hc with ⟨rfl, _⟩ | hc
      · rfl
      · exact absurd he.symm (hfresh hc)
    · rcases hcases hc with ⟨_, rfl⟩ | hc
      · exact absurd he (hfresh hb)
      · exact h.clients first second b c hb hc he
  · obtain ⟨b, hb, hrest⟩ := h.sent q hq
    exact ⟨b, hkept hb, hrest⟩
  · obtain ⟨other, b, hb, hc⟩ := h.placed _ placed hp
    exact ⟨other, b, hkept hb, hc⟩

/-- An order that is on record as sent may be handed to the venue. -/
theorem preserves_receive (h : Agrees w) {record b : OrderRecord} (hb : w.orders.find? record.orderId = some b)
    (hs : Succeeds record b) (hsent : record.submittedAt.isSome) (r : Except ServiceError VenueOrderView) :
    Preserves own w { w with toWorld := w.receive record r } := by
  have horders : (w.receive record r).orders = w.orders := by cases r <;> rfl
  have hhanded : (w.receive record r).sent = w.sent ++ [record] := by cases r <;> rfl
  refine ⟨⟨fun orderId c hc => ?_, fun first second c d hc hd => ?_, fun q hq => ?_, fun _ placed hp => ?_⟩,
    ⟨fun orderId c hc => ⟨c, ?_, .refl c⟩, fun _ placed hp => ⟨placed, hp, .refl placed⟩⟩, fun c hc _ _ => ?_⟩
  · rw [horders] at hc
    exact h.rows orderId c hc
  · rw [horders] at hc hd
    exact h.clients first second c d hc hd
  · rw [hhanded, List.mem_append, List.mem_singleton] at hq
    rw [horders]
    rcases hq with hq | rfl
    · exact h.sent q hq
    · exact ⟨b, hb, hs.clientOrderId, hs.sent hsent⟩
  · rw [horders]
    exact h.placed _ placed hp
  · rw [horders]
    exact hc
  · rw [horders]
    exact hc

end Aetheris.RacingCalls
