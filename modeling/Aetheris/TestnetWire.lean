import Aetheris.Lib.Expansion
import Aetheris.Submission
import Aetheris.TestnetRequests

namespace Aetheris.TestnetWire

open Lib Coroutine Enums OrderRecords OrderStore OrderEngine OrderIdentity TestnetService TestnetWorld Signing
open TestnetRequests
open VenueAnswers (Interpreter Json)

/-- The orders as they are stored, and every request that has left. -/
structure WireWorld (durable : Bool) where
  orders : RecordStore durable
  requests : List HttpRequest := []

variable {durable : Bool} {α β : Type}

def WireWorld.desk (v : WireWorld durable) : World durable := { orders := v.orders }

/-- Of a request that raises it is not known whether it has left. -/
def exec [Runtime] : Semantics (Wire (RecordStore durable)) ServiceError (WireWorld durable)
  | _, .keep f, v, r, v' => ∃ w', TestnetWorld.exec f v.desk r w' ∧ v' = { v with orders := w'.orders }
  | _, .http request, v, r, v' =>
      v' = { v with requests := v.requests ++ [request] } ∨ (∃ e, r = .error e) ∧ v' = v
  | _, _, v, _, v' => v' = v

/-- The identity of an order that this request asks for, as the venue reads it. -/
def placedId [Hmac] (apiSecret : String) (request : HttpRequest) : Option String :=
  if request.method = .post ∧ request.path = VenueAnswers.order then
    (venueReads apiSecret request.query).bind fun read => read.lookup "newClientOrderId"
  else none

/-- Each order that was asked for was handed over, in that order. -/
structure Sees [Hmac] (apiSecret : String) (v : WireWorld durable) (w : World durable) : Prop where
  orders : v.orders = w.orders
  placed : (v.requests.filterMap (placedId apiSecret)).Sublist (w.sent.map OrderRecord.clientOrderId)

section Steps

theorem commits_commit_orders {step : OrderM (RecordStore durable) α} {w₁ w₁' : World durable}
    {r : Except ServiceError α} (h : Commits step w₁ r w₁') {w : World durable} (hw : w₁.orders = w.orders) :
    Commits step w r (w.commit w₁'.orders) := by
  unfold Commits at h ⊢
  rw [hw] at h
  cases hstep : step w.orders with
  | ok p =>
      obtain ⟨a, u⟩ := p
      rw [hstep] at h
      rcases h with ⟨hr, rfl⟩ | ⟨hr, rfl | rfl⟩
      · exact .inl ⟨hr, rfl⟩
      · exact .inr ⟨hr, .inl (congrArg w.commit hw)⟩
      · exact .inr ⟨hr, .inr rfl⟩
  | error e =>
      rw [hstep] at h
      obtain ⟨hr, rfl⟩ := h
      exact ⟨hr, congrArg w.commit hw⟩

variable [Runtime]

/-- An effect that the adapter has no part in. -/
def Kept : {α : Type} → Effect (RecordStore durable) α → Prop
  | _, .utcnow | _, .createOrGet _ | _, .transact _ | _, .rule _ _ _ | _, .lastPrice _ | _, .stepSize _ => True
  | _, _ => False

theorem exec_commit_orders {f : Effect (RecordStore durable) α} (hf : Kept f) {w₁ w₁' : World durable}
    {r : Except ServiceError α} (h : TestnetWorld.exec f w₁ r w₁') {w : World durable} (hw : w₁.orders = w.orders) :
    TestnetWorld.exec f w r (w.commit w₁'.orders) := by
  have hstill : w₁' = w₁ → w.commit w₁'.orders = w := by
    rintro rfl
    exact congrArg w.commit hw
  cases f with
  | transact step => exact commits_commit_orders h hw
  | createOrGet intent =>
      obtain ⟨orderId, hid, hx⟩ := h
      exact ⟨orderId, hw ▸ hid, commits_commit_orders hx hw⟩
  | utcnow => exact hstill h
  | rule request record now => exact hstill h
  | lastPrice symbol => exact hstill h
  | stepSize symbol => exact hstill h
  | _ => exact absurd hf id

end Steps

section Handling

variable [Runtime] [Hmac] {apiSecret : String}

/-- An effect of which the orders see nothing but the answer. -/
def Idle : {α : Type} → Effect (RecordStore durable) α → Prop
  | _, .requireOneWayMode | _, .setLeverage _ _ | _, .setMarginMode _ _ | _, .marginMode _ | _, .query _ _
  | _, .cancel _ _ => True
  | _, _ => False

omit [Hmac] in
theorem exec_idle {f : Effect (RecordStore durable) α} (hf : Idle f) (w : World durable) (x : Except ServiceError α) :
    TestnetWorld.exec f w x w := by
  cases f with
  | transact step => exact absurd hf id
  | createOrGet intent => exact absurd hf id
  | submit record => exact absurd hf id
  | _ => rfl

/-- A step that asks for no order. -/
def Harmless (apiSecret : String) : {β : Type} → Wire (RecordStore durable) β → Prop
  | _, .keep _ => False
  | _, .http request => placedId apiSecret request = none
  | _, .timestamp | _, .sleep _ => True

theorem sees_of_harmless {g : Wire (RecordStore durable) β} (hg : Harmless apiSecret g) {v v' : WireWorld durable}
    {r : Except ServiceError β} (hx : exec g v r v') {w : World durable} (hv : Sees apiSecret v w) :
    Sees apiSecret v' w := by
  cases g with
  | keep f => exact absurd hg id
  | timestamp =>
      cases hx
      exact hv
  | sleep seconds =>
      cases hx
      exact hv
  | http request =>
      rcases hx with rfl | ⟨_, rfl⟩
      · refine ⟨hv.orders, ?_⟩
        have hnone : placedId apiSecret request = none := hg
        simpa [List.filterMap_append, hnone] using hv.placed
      · exact hv

theorem amounts_of_harmless {f : Effect (RecordStore durable) α} (hf : Idle f) {c : WireM (RecordStore durable) α}
    (hc : c.Performs (Harmless apiSecret)) : Amounts TestnetWorld.exec exec (Sees apiSecret) f c := by
  induction c with
  | ret a => exact fun v w hv => ⟨w, exec_idle hf w _, hv⟩
  | raise e => exact fun v w hv => ⟨w, exec_idle hf w _, hv⟩
  | await g k ih => exact fun v w r v' hx hv => .inl ⟨sees_of_harmless hc.1 hx hv, ih r (hc.2 r)⟩

theorem amounts_keep {f : Effect (RecordStore durable) α} (hf : Kept f) :
    Amounts TestnetWorld.exec exec (Sees apiSecret) f (perform (.keep f) : WireM (RecordStore durable) α) := by
  rintro v w r v' ⟨w', hx, rfl⟩ hv
  exact .inr ⟨r, w.commit w'.orders, by cases r <;> rfl, exec_commit_orders hf hx hv.orders, rfl, hv.placed⟩

end Handling

section Requests

variable [Hmac] [Interpreter] (settings : TestnetSettings)

abbrev Asks (c : WireM (RecordStore durable) α) : Prop := c.Performs (Harmless settings.apiSecret)

theorem attempts_asks {method : Method} {path : String} (h : ¬ (method = .post ∧ path = VenueAnswers.order))
    (params : Params) (left attempt : Nat) :
    Asks settings (attempts settings method path params left attempt : WireM (RecordStore durable) _) := by
  induction left generalizing attempt with
  | zero =>
      unfold attempts
      refine performs_then trivial fun timestampMs => performs_then (if_neg h) fun answer => ?_
      cases answer with
      | timedOut => exact trivial
      | unreachable => exact trivial
      | response response observedAt =>
          dsimp only
          split
          · exact trivial
          · split <;> exact trivial
  | succ left ih =>
      unfold attempts
      refine performs_then trivial fun timestampMs => performs_then (if_neg h) fun answer => ?_
      cases answer with
      | timedOut => exact ih _
      | unreachable => exact ih _
      | response response observedAt =>
          dsimp only
          split
          · exact trivial
          · split
            · exact performs_then trivial fun _ => ih _
            · exact trivial

theorem requested_asks {method : Method} {path : String} (h : ¬ (method = .post ∧ path = VenueAnswers.order))
    (params : List (String × ParamValue))
    (read : Except AdapterError (Json × Clock.Timestamp) → Except AdapterError α) :
    Asks settings (requested settings method path params read : WireM (RecordStore durable) α) := by
  exact performs_bind (attempts_asks settings h _ _ _) fun answer => performs_finished _

theorem marginModeFrom_asks [Runtime] (symbol : String) (paths : List String) :
    Asks settings (marginModeFrom settings symbol paths : WireM (RecordStore durable) _) := by
  induction paths with
  | nil => exact trivial
  | cons path rest ih =>
      have hget : ¬ (Method.get = .post ∧ path = VenueAnswers.order) := fun h => nomatch h.1
      refine performs_bind (attempts_asks settings hget _ _ _) fun answer => ?_
      split
      · split
        · exact ih
        · exact trivial
      · split
        · exact trivial
        · exact ih

end Requests

section Orders

variable [Runtime] [Hmac] [Interpreter] (settings : TestnetSettings)

omit [Runtime] [Hmac] [Interpreter] in
theorem limitParams_keys {intent : OrderIntent} {limit : List (String × ParamValue)} (h : limitParams intent = .ok limit) :
    ∀ e ∈ limit, e.1 ≠ "newClientOrderId" := by
  unfold limitParams at h
  split at h
  · cases h
  · cases h
    intro e he
    simp only [List.mem_cons, List.not_mem_nil, or_false] at he
    rcases he with rfl | rfl <;> simp
  · cases h
    exact fun _ he => absurd he List.not_mem_nil

omit [Hmac] [Interpreter] in
theorem orderParams_id {record : OrderRecord} {params : List (String × ParamValue)} (h : orderParams record = .ok params) :
    (Dict.ofList params).get? "newClientOrderId" = some (.text record.clientOrderId) := by
  unfold orderParams at h
  cases hl : limitParams record.intent with
  | error e =>
      rw [hl] at h
      cases h
  | ok limit =>
      rw [hl] at h
      cases h
      rw [List.append_assoc]
      refine @Dict.get?_ofList _ _ _ _ _ [("symbol", _), ("side", _), ("type", _), ("quantity", _), ("positionSide", _)] _
        fun e he => ?_
      rcases List.mem_append.mp he with he | he
      · exact absurd he List.not_mem_nil
      rcases List.mem_append.mp he with he | he
      · exact limitParams_keys hl e he
      · split at he
        · cases List.mem_singleton.mp he
          simp
        · exact absurd he List.not_mem_nil

omit [Interpreter] in
theorem placedId_signed {record : OrderRecord} {params : List (String × ParamValue)} (h : orderParams record = .ok params)
    (timestampMs : Int) :
    placedId settings.apiSecret (signedRequest settings .post VenueAnswers.order (Dict.ofList params) timestampMs) =
      some record.clientOrderId := by
  rw [placedId, if_pos ⟨rfl, rfl⟩]
  change (venueReads settings.apiSecret (buildSignedQuery _ _ _ timestampMs)).bind _ = _
  rw [venueReads_buildSignedQuery, Option.bind_some]
  change (payload (Dict.ofList params) settings.recvWindowMs timestampMs).get? "newClientOrderId" = _
  rw [get?_payload _ _ _ (by decide) (by decide), orderParams_id h]
  rfl

/-- The request for an order leaves once, and whatever comes of it is the end. -/
theorem amounts_submit (record : OrderRecord) : Amounts TestnetWorld.exec exec (Sees settings.apiSecret)
    (.submit record) (TestnetRequests.submit settings record : WireM (RecordStore durable) _) := by
  have hhanded : ∀ (v : WireWorld durable) w x, Sees settings.apiSecret v w → ∃ w',
      TestnetWorld.exec (.submit record) w x w' ∧ Sees settings.apiSecret v w' := by
    intro v w x hv
    refine ⟨w.receive record x, rfl, by rw [Submission.receive_orders]; exact hv.orders, ?_⟩
    rw [Submission.receive_sent, List.map_append]
    exact hv.placed.trans (List.sublist_append_left _ _)
  unfold TestnetRequests.submit
  cases hparams : orderParams record with
  | error e => exact fun v w hv => hhanded v w _ hv
  | ok params =>
      change Amounts _ _ _ _ (attempts settings .post VenueAnswers.order (Dict.ofList params) 0 0 >>= _)
      rw [attempts_zero]
      intro v w timestamp v' hx hv
      cases hx
      refine .inl ⟨hv, ?_⟩
      cases timestamp with
      | error e => exact fun v w hv => hhanded v w _ hv
      | ok timestampMs =>
          intro v w r v' hx hv
          have hdone : ∀ x, ∃ w', TestnetWorld.exec (.submit record) w x w' ∧ Sees settings.apiSecret v' w' := by
            intro x
            rcases hx with rfl | ⟨_, rfl⟩
            · refine ⟨w.receive record x, rfl, by rw [Submission.receive_orders]; exact hv.orders, ?_⟩
              rw [Submission.receive_sent, List.map_append, List.filterMap_append]
              refine hv.placed.append ?_
              simp [placedId_signed settings hparams timestampMs]
            · exact hhanded v' w x hv
          cases r with
          | error e =>
              obtain ⟨w', hw'⟩ := hdone (.error e)
              exact .inr ⟨.error e, w', rfl, hw'⟩
          | ok answer =>
              obtain ⟨w', hw'⟩ := hdone ((single VenueAnswers.order answer >>=
                viewOf "order response was not an object").mapError AdapterError.raised)
              exact .inr ⟨_, w', rfl, hw'⟩

/-- What the service asks of its adapter is one effect, however many requests it takes. -/
theorem amounts_overTheWire (f : Effect (RecordStore durable) α) :
    Amounts TestnetWorld.exec exec (Sees settings.apiSecret) f (overTheWire settings f) := by
  have hget : ∀ path, ¬ (Method.get = .post ∧ path = VenueAnswers.order) := fun _ h => nomatch h.1
  have hdelete : ∀ path, ¬ (Method.delete = .post ∧ path = VenueAnswers.order) := fun _ h => nomatch h.1
  cases f with
  | submit record => exact amounts_submit settings record
  | requireOneWayMode => exact amounts_of_harmless (by trivial) (requested_asks settings (hget _) _ _)
  | setLeverage symbol leverage => exact amounts_of_harmless (by trivial) (requested_asks settings (by decide) _ _)
  | setMarginMode symbol mode => exact amounts_of_harmless (by trivial) (requested_asks settings (by decide) _ _)
  | marginMode symbol => exact amounts_of_harmless (by trivial) (marginModeFrom_asks settings symbol _)
  | query symbol clientOrderId => exact amounts_of_harmless (by trivial) (requested_asks settings (hget _) _ _)
  | cancel symbol clientOrderId => exact amounts_of_harmless (by trivial) (requested_asks settings (hdelete _) _ _)
  | utcnow => exact amounts_keep trivial
  | createOrGet intent => exact amounts_keep trivial
  | transact step => exact amounts_keep trivial
  | rule request record now => exact amounts_keep trivial
  | lastPrice symbol => exact amounts_keep trivial
  | stepSize symbol => exact amounts_keep trivial

/-- A submission, request by request. -/
def Submissions (c : WireM (RecordStore durable) TestnetOrderResult) : Prop :=
  ∃ submission, Submits submission ∧ c = submission.expand (overTheWire settings)

end Orders

/-- A venue that takes every setting, and whose answer to an order is not heard. -/
def granting (request : HttpRequest) : HttpAnswer :=
  if request.path = positionSideDual then .response ⟨200, some (.dict [("dualSidePosition", .bool false)])⟩ 10
  else if request.path = leveragePath then .response ⟨200, some (.dict [("leverage", .int 5)])⟩ 10
  else if request.path = marginTypePath then
    .response ⟨200, some (.dict [("code", .int 200), ("msg", .text "success")])⟩ 10
  else if request.path = positionRisk then
    .response ⟨200, some (.list [.dict [("symbol", .text "BTCUSDT"), ("marginType", .text "isolated")]])⟩ 10
  else .timedOut

def grantsWire [Runtime] : {β : Type} → Wire (RecordStore true) β → WireWorld true → Except ServiceError β × WireWorld true
  | _, .keep f, v =>
      let answer := grants (.error (.exchange "no order is kept")) f v.desk
      (answer.1, { v with orders := answer.2.orders })
  | _, .timestamp, v => (.ok 10, v)
  | _, .http request, v => (.ok (granting request), { v with requests := v.requests ++ [request] })
  | _, .sleep _, v => (.ok (), v)

def exampleWire : WireM (RecordStore true) TestnetOrderResult :=
  Submission.exampleSubmit.expand
    (@overTheWire VenueAnswers.referenceInterpreter constantHmac exampleSettings _ referenceRuntime)

def afterWire : WireWorld true := (exampleWire.interp (@grantsWire referenceRuntime) { orders := RecordStore.empty }).2


theorem exec_grantsWire [Runtime] {β : Type} (f : Wire (RecordStore true) β) (v : WireWorld true) :
    exec f v (grantsWire f v).1 (grantsWire f v).2 := by
  cases f with
  | keep f => exact ⟨_, exec_grants _ f v.desk, rfl⟩
  | timestamp => rfl
  | http request => exact .inl rfl
  | sleep seconds => rfl

/-- However many submissions race, crash and are retried, however their requests are
answered and how often their reads are sent again, the venue is asked for an order
under an identity at most once, and never for one that is not on record as sent. -/
theorem orders_requested_once_and_recorded [Runtime] [Hmac] [Interpreter] (settings : TestnetSettings)
    (orders : RecordStore durable) (v : WireWorld durable) (pool : List (WireM (RecordStore durable) TestnetOrderResult))
    (h : Reachable exec (Submissions settings) { orders := orders } (v, pool)) (clientOrderId : String) :
    (v.requests.filter (fun q => placedId settings.apiSecret q = some clientOrderId)).length ≤ 1 ∧
      ∀ q ∈ v.requests, placedId settings.apiSecret q = some clientOrderId →
        ∃ orderId r, v.orders.find? orderId = some r ∧ r.clientOrderId = clientOrderId ∧ r.submittedAt.isSome := by
  have hstart : Sees settings.apiSecret ({ orders := orders } : WireWorld durable) { orders := orders } :=
    ⟨rfl, List.Sublist.refl _⟩
  obtain ⟨w, submissions, hreach, hsees, _⟩ := reachable_expand (amounts_overTheWire settings) hstart h
  have hinv := Submission.submits_inv hreach
  constructor
  · have hnodup : (v.requests.filterMap (placedId settings.apiSecret)).Nodup := hsees.placed.nodup hinv.once
    have hcount := List.nodup_iff_count_le_one.mp hnodup clientOrderId
    rw [List.count_filterMap, List.countP_eq_length_filter] at hcount
    refine le_of_eq_of_le (congrArg List.length (List.filter_congr fun q _ => ?_)) hcount
    rw [Bool.eq_iff_iff, decide_eq_true_iff, beq_iff_eq]
  · intro q hq hplaced
    have hsent : clientOrderId ∈ w.sent.map OrderRecord.clientOrderId :=
      hsees.placed.subset (List.mem_filterMap.mpr ⟨q, hq, hplaced⟩)
    obtain ⟨record, hrecord, rfl⟩ := List.mem_map.mp hsent
    obtain ⟨r, hr, hid, _, hsubmitted⟩ := hinv.sent record hrecord
    exact ⟨record.orderId, r, hsees.orders ▸ hr, hid, hsubmitted⟩

theorem orders_requested_once_and_recorded_granted :
    (afterWire.requests.filter (fun q => @placedId constantHmac "secret" q = some "aeth-26e742032342c67b1c32")).length ≤ 1 ∧
      ∀ q ∈ afterWire.requests, @placedId constantHmac "secret" q = some "aeth-26e742032342c67b1c32" →
        ∃ orderId r, afterWire.orders.find? orderId = some r ∧ r.clientOrderId = "aeth-26e742032342c67b1c32" ∧
          r.submittedAt.isSome :=
  @orders_requested_once_and_recorded true referenceRuntime constantHmac VenueAnswers.referenceInterpreter exampleSettings
    RecordStore.empty afterWire _ (reachable_interp _ _ (@exec_grantsWire referenceRuntime) .refl
      ⟨Submission.exampleSubmit, ⟨⟨"acct", true⟩, Submission.exampleRequest, rfl⟩, rfl⟩) "aeth-26e742032342c67b1c32"

end Aetheris.TestnetWire
