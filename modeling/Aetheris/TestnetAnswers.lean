import Aetheris.Lib.SoleRun
import Aetheris.Submission
import Aetheris.VenueAnswers

namespace Aetheris.TestnetAnswers

open Lib Coroutine Money Clock Enums OrderRecords OrderMachine OrderStore OrderEngine OrderCalls OrderIdentity
open RecordStore TestnetService TestnetWorld VenueAnswers

/-- What the columns of a row can hold of what an answer puts in them. -/
def fits (r : OrderRecord) : Bool :=
  r.venueOrderId.all (fun id => decide (id.length ≤ 64) && storable id) && r.reconciliationDetail.all storable

/-- A step of the store that the database carries out wherever its columns can
hold what the step writes. -/
def commits {α : Type} (step : OrderM (RecordStore true) α) (w : World true) : Except ServiceError α × World true :=
  match step w.orders with
  | .ok (a, t) =>
      if (t.stored.drop w.orders.stored.length).all fits then (.ok a, w.commit t)
      else (.error (.order (.databaseUnavailable "could not update order: DBAPIError")), w)
  | .error e => (.error (.order e), w)

section

variable [Runtime] [Interpreter]

/-- A venue that answers a submission with this response. What the rest of the
submission awaits may be answered in any way. -/
def answering (response : Response) : Semantics (Effect (RecordStore true)) ServiceError (World true)
  | _, .transact step, w, r, w' => (r, w') = commits step w
  | _, .createOrGet intent, w, r, w' =>
      ∃ orderId, w.orders.find? orderId = none ∧ (r, w') = commits (createOrGet orderId intent) w
  | _, .submit record, w, r, w' => ∃ observedAt, r = answer response observedAt ∧ w' = w.receive record r
  | _, .utcnow, w, r, w' => (∃ now, r = .ok now) ∧ w' = w
  | _, _, w, _, w' => w' = w

end

section Answers

variable [Interpreter]

/-- The stored order is acknowledged as the venue answered, or it is unknown. -/
def Accounted (response : Response) (record : OrderRecord) (w : World true) : Prop :=
  ∃ r, w.orders.find? record.orderId = some r ∧ (r.state = .unknown ∨ ∃ view,
    answer response view.observedAt = .ok view ∧ r.state = view.state ∧
      r.venueOrderId = some (view.venueOrderId.getD ""))

/-- A venue order id that a row can take: it has room, and no order of the
account has the id. -/
def Takes (orders : RecordStore true) (id : String) : Prop :=
  id.length ≤ 64 ∧ storable id ∧ ∀ q ∈ orders.rows, q.venueOrderId ≠ some id

/-- The answers that an order survives. -/
structure Handled (orders : RecordStore true) (response : Response) : Prop where
  code : ∀ code msg, Coded response code msg → ∃ n, code.toInt = .ok n
  message : ∀ code msg n, Coded response code msg → code.toInt = .ok n → n ≠ 200 → storable msg.str
  legible : ∀ payload, Describes response payload → Legible payload
  venueOrderId : ∀ payload, Describes response payload → Takes orders ((venueOrderIdOf payload).getD "")

/-- What the submission can go on with: a view it can store, or an error that it
takes for no answer and can note. -/
def Settles (orders : RecordStore true) : Except ServiceError VenueOrderView → Prop
  | .ok view => Takes orders (view.venueOrderId.getD "")
  | .error e => e.isExchangeError ∧ storable e.text

section

variable {orders : RecordStore true} {response : Response} {observedAt : Timestamp}

omit [Interpreter] in
theorem settles_of_unusable {r : Except ServiceError VenueOrderView} (h : Unusable r) : Settles orders r := by
  obtain ⟨message, rfl, hmessage⟩ := h
  exact ⟨rfl, hmessage⟩

omit [Interpreter] in
theorem not_settles_of_escapes {r : Except ServiceError VenueOrderView} (h : Escapes r) : ¬ Settles orders r := by
  obtain ⟨e, rfl, he⟩ := h
  exact fun hs => Bool.false_ne_true (he.symm.trans hs.1)

theorem handled_of_sound (hsound : ∀ code msg, Coded response code msg → code.toInt = .ok 200)
    (h : ∀ payload, Describes response payload → Legible payload ∧ Takes orders ((venueOrderIdOf payload).getD "")) :
    Handled orders response := by
  refine ⟨fun code msg hcoded => ⟨200, hsound code msg hcoded⟩, fun code msg n hcoded hint hn => ?_,
    fun payload hd => (h payload hd).1, fun payload hd => (h payload hd).2⟩
  cases (hsound code msg hcoded).symm.trans hint
  exact absurd rfl hn

variable (orders response observedAt) in
/-- The submission can go on with the answers that an order survives, and with no others. -/
theorem settles_iff : Settles orders (answer response observedAt) ↔ Handled orders response := by
  obtain ⟨code, msg, e, hcoded, hint, hdecode⟩ | ⟨code, msg, n, hcoded, hint, hn, message, hdecode, hmessage⟩ |
    ⟨hsound, ⟨message, hdecode, hmessage⟩ | ⟨payload, hdecode⟩⟩ := decode_cases response
  · have hanswer : answer response observedAt = .error e := by rw [answer, hdecode]
    rw [hanswer]
    refine iff_of_false (not_settles_of_escapes ⟨e, rfl, toInt_error hint⟩) fun h => ?_
    obtain ⟨n, hn⟩ := h.code code msg hcoded
    cases hint.symm.trans hn
  · have hanswer : answer response observedAt = .error (.exchange message) := by rw [answer, hdecode]
    rw [hanswer]
    constructor
    · intro h
      refine ⟨fun code' msg' h' => ?_, fun code' msg' n' h' _ _ => ?_, fun payload h' => ?_, fun payload h' => ?_⟩
      · obtain ⟨rfl, rfl⟩ := hcoded.unique h'
        exact ⟨n, hint⟩
      · obtain ⟨rfl, rfl⟩ := hcoded.unique h'
        exact hmessage.symm.trans h.2
      · cases hdecode.symm.trans h'.decoded
      · cases hdecode.symm.trans h'.decoded
    · exact fun h => ⟨rfl, hmessage.trans (h.message code msg n hcoded hint hn)⟩
  · have hanswer : answer response observedAt = .error (.exchange message) := by rw [answer, hdecode]
    rw [hanswer]
    refine iff_of_true ⟨rfl, hmessage⟩ (handled_of_sound hsound fun payload h => ?_)
    cases hdecode.symm.trans h.decoded
  · cases payload with
    | dict payload =>
        have hanswer : answer response observedAt = parseOrderView payload observedAt := by rw [answer, hdecode]
        rw [hanswer]
        by_cases hd : Describes response payload
        · by_cases hl : Legible payload
          · obtain ⟨view, hview, hid, _, _⟩ := parseOrderView_of_legible observedAt hd hl
            rw [hview, Settles, hid]
            refine ⟨fun h => handled_of_sound hsound fun payload' h' => ?_, fun h => h.venueOrderId payload hd⟩
            cases hdecode.symm.trans h'.decoded
            exact ⟨hl, h⟩
          · exact iff_of_false (not_settles_of_escapes (parseOrderView_of_illegible _ hd hl)) fun h => hl (h.legible payload hd)
        · refine iff_of_true (settles_of_unusable (parseOrderView_of_not_describes _ hdecode hd))
            (handled_of_sound hsound fun payload' h' => ?_)
          cases hdecode.symm.trans h'.decoded
          exact absurd h' hd
    | _ =>
        refine iff_of_true ?_ (handled_of_sound hsound fun payload' h' => ?_)
        · rw [answer, hdecode]
          exact ⟨rfl, rfl⟩
        · cases hdecode.symm.trans h'.decoded

end

end Answers

section Orders

variable {w₀ w : World true} {α : Type} {orderId : String} {b : OrderRecord}

theorem commits_of_fits {step : OrderM (RecordStore true) α} {a : α} {r : OrderRecord}
    (hstep : step w.orders = .ok (a, w.orders.put r)) :
    commits step w = if fits r then (.ok a, w.commit (w.orders.put r))
      else (.error (.order (.databaseUnavailable "could not update order: DBAPIError")), w) := by
  unfold commits
  rw [hstep]
  simp [stored_put]

theorem commits_read {step : OrderM (RecordStore true) α} {a : α} (hstep : step w.orders = .ok (a, w.orders)) :
    commits step w = (.ok a, w) := by
  unfold commits
  rw [hstep]
  simp
  rfl

theorem commits_ok {step : OrderM (RecordStore true) α} {a : α} {w' : World true} (h : (.ok a, w') = commits step w) :
    ∃ t, step w.orders = .ok (a, t) ∧ (t.stored.drop w.orders.stored.length).all fits ∧ w' = w.commit t := by
  unfold commits at h
  cases hstep : step w.orders with
  | error e =>
      rw [hstep] at h
      cases h
  | ok p =>
      rw [hstep] at h
      dsimp only at h
      split at h
      next hfits =>
        cases h
        exact ⟨_, rfl, hfits, rfl⟩
      next => cases h

theorem commits_still {step : OrderM (RecordStore true) α} {e : ServiceError} {w' : World true}
    (h : (.error e, w') = commits step w) : w' = w := by
  unfold commits at h
  cases hstep : step w.orders with
  | error e =>
      rw [hstep] at h
      cases h
      rfl
  | ok p =>
      rw [hstep] at h
      dsimp only at h
      split at h
      next => cases h
      next =>
        cases h
        rfl

/-- What is stored of the order between the calls that read and write it. -/
structure Drafted (w₀ : World true) (orderId : String) (w : World true) (r : OrderRecord) : Prop where
  sent : w.sent = w₀.sent
  fresh : w₀.orders.find? orderId = none
  others : ∀ other, other ≠ orderId → w.orders.find? other = w₀.orders.find? other
  held : w.orders.find? orderId = some r
  venueOrderId : r.venueOrderId = none
  reconciliationDetail : r.reconciliationDetail = none

theorem Drafted.put {r' : OrderRecord} (h : Drafted w₀ orderId w b) (hid : r'.orderId = orderId)
    (hv : r'.venueOrderId = none) (hd : r'.reconciliationDetail = none) :
    Drafted w₀ orderId (w.commit (w.orders.put r')) r' where
  sent := h.sent
  fresh := h.fresh
  others := fun other hne => by
    rw [World.commit, find?_put_of_ne _ (by rw [hid]; exact hne.symm), h.others other hne]
  held := by rw [World.commit, ← hid, find?_put_self]
  venueOrderId := hv
  reconciliationDetail := hd

theorem fits_withUnknown (hv : b.venueOrderId = none) (reason : String) (now : Timestamp) :
    fits (withUnknown b reason now) = storable reason := by
  simp [fits, withUnknown, hv]

theorem Drafted.mem_others (h : Drafted w₀ orderId w b) {q : OrderRecord} :
    q ∈ w.orders.rows ∧ q.orderId ≠ orderId ↔ q ∈ w₀.orders.rows := by
  rw [mem_rows_iff, mem_rows_iff]
  constructor
  · rintro ⟨hq, hne⟩
    rwa [← h.others _ hne]
  · intro hq
    have hne : q.orderId ≠ orderId := by
      intro he
      rw [he, h.fresh] at hq
      cases hq
    exact ⟨(h.others _ hne).trans hq, hne⟩

/-- The acknowledgement can be stored exactly where the row can take the id. -/
theorem Drafted.takes_iff (h : Drafted w₀ orderId w b) (venueOrderId : String) (state : OrderState) (now : Timestamp) :
    Takes w₀.orders venueOrderId ↔
      w.orders.venueIdTaken (withAck b venueOrderId state now) = false ∧ fits (withAck b venueOrderId state now) := by
  have hid : b.orderId = orderId := orderId_of_find? h.held
  have htaken : w.orders.venueIdTaken (withAck b venueOrderId state now) = false ↔
      ∀ q ∈ w₀.orders.rows, q.venueOrderId ≠ some venueOrderId := by
    have hrow : (w.orders.find? orderId).bind OrderRecord.venueOrderId = none := by
      rw [h.held]
      exact h.venueOrderId
    unfold venueIdTaken
    rw [show (withAck b venueOrderId state now).orderId = orderId from hid,
      show (withAck b venueOrderId state now).venueOrderId = some venueOrderId from rfl, hrow]
    simp only [Option.isSome_some, Bool.and_true, Bool.true_and, ne_eq, reduceCtorEq, not_false_eq_true, decide_true,
      List.any_eq_false, Bool.and_eq_true, decide_eq_true_eq, not_and]
    exact ⟨fun hfree q hq => (h.mem_others.mpr hq).elim (hfree q), fun hfree q hq hne => hfree q (h.mem_others.mp ⟨hq, hne⟩)⟩
  have hfits : fits (withAck b venueOrderId state now) ↔ venueOrderId.length ≤ 64 ∧ storable venueOrderId := by
    simp [fits, withAck, h.reconciliationDetail]
  rw [htaken, hfits, Takes]
  tauto

/-- Marking the drafted row unknown is stored wherever its reason can be. -/
theorem commits_markUnknown {v : World true} (hloads : Loads v.orders orderId b) (hstate : b.state = .submitted)
    (hvenue : b.venueOrderId = none) (reason : String) (now : Timestamp) :
    commits (markUnknown orderId reason now) v =
      if storable reason then (.ok (withUnknown b reason now), v.commit (v.orders.put (withUnknown b reason now)))
      else (.error (.order (.databaseUnavailable "could not update order: DBAPIError")), v) := by
  have hstep : markUnknown orderId reason now v.orders =
      .ok (withUnknown b reason now, v.orders.put (withUnknown b reason now)) :=
    markUnknown_ok.mpr ⟨b, hloads, by rw [hstate]; rfl, venueIdTaken_of_none hvenue, rfl⟩
  rw [commits_of_fits hstep, fits_withUnknown hvenue]

/-- An acknowledgement of the drafted row is stored where its id is taken in, and else raises. -/
theorem commits_applyVenueAck {v : World true} (hd : Drafted w₀ orderId w b) (ho : v.orders = w.orders)
    (hstate : b.state = .submitted) (hread : readable true b) {state : OrderState} (hedge : canTransition .submitted state) (venueOrderId : String)
    (now : Timestamp) :
    Takes w₀.orders venueOrderId ∧ commits (applyVenueAck orderId venueOrderId state now) v =
        (.ok (withAck b venueOrderId state now), v.commit (v.orders.put (withAck b venueOrderId state now))) ∨
      ¬ Takes w₀.orders venueOrderId ∧ ∃ e, commits (applyVenueAck orderId venueOrderId state now) v = (.error e, v) := by
  have hloads : Loads v.orders orderId b := by
    rw [ho]
    exact ⟨hd.held, hread⟩
  have htakes := hd.takes_iff venueOrderId state now
  rw [← ho] at htakes
  rcases hx : commits (applyVenueAck orderId venueOrderId state now) v with ⟨e | acked, w'⟩
  · refine .inr ⟨fun h => ?_, e, by rw [commits_still hx.symm]⟩
    obtain ⟨hfree, hfits⟩ := htakes.mp h
    have hstep : applyVenueAck orderId venueOrderId state now v.orders =
        .ok (withAck b venueOrderId state now, v.orders.put (withAck b venueOrderId state now)) :=
      applyVenueAck_ok.mpr ⟨b, hloads, by rw [hstate]; exact hedge, hfree, rfl⟩
    rw [commits_of_fits hstep, if_pos hfits] at hx
    cases hx
  · obtain ⟨t, hstep, hfits, rfl⟩ := commits_ok hx.symm
    obtain ⟨b', hloads', _, hfree, hput⟩ := applyVenueAck_ok.mp hstep
    obtain rfl := hloads'.unique hloads
    cases hput
    rw [stored_put, List.drop_left, List.all_cons, List.all_nil, Bool.and_true] at hfits
    exact .inl ⟨htakes.mpr ⟨hfree, hfits⟩, rfl⟩

theorem get_of_held {s : RecordStore true} {orderId : String} {r : OrderRecord} (h : Loads s orderId r) :
    OrderRepository.get orderId s = .ok (some r, s) := by
  refine get_ok.mpr ⟨fun q hq => ?_, by rw [h.1]⟩
  cases h.1.symm.trans hq
  exact h.2

theorem canTransition_of_state? {json : Json} {state : OrderState} (h : state? json = some state) :
    canTransition .submitted state := by
  have hall : ∀ entry ∈ venueStatusToState, canTransition .submitted entry.2 := by decide
  cases json with
  | text status =>
      obtain ⟨before, after, he, _⟩ := List.lookup_eq_some_iff.mp h
      exact hall (status, state) (by rw [he]; simp)
  | _ => cases h

end Orders

section Runs

variable [Runtime] [Interpreter] {response : Response} {w₀ w : World true} {α β : Type}
  {post : Except ServiceError β → World true → Prop}

theorem always_transact {step : OrderM (RecordStore true) α} {k : α → ServiceM (RecordStore true) β}
    (hraise : ∀ e, post (.error e) w)
    (h : ∀ a t, step w.orders = .ok (a, t) → (k a).Always (answering response) (w.commit t) post) :
    (perform (.transact step) >>= k).Always (answering response) w post := by
  refine Always.bind (Always.perform fun r w' hx => ?_)
  change (r, w') = commits step w at hx
  cases r with
  | error e =>
      rw [commits_still hx]
      exact hraise e
  | ok a =>
      obtain ⟨t, hstep, _, rfl⟩ := commits_ok hx
      exact h a t hstep

theorem always_get {orderId : String} {k : Option OrderRecord → ServiceM (RecordStore true) β}
    (hraise : ∀ e, post (.error e) w)
    (h : (∀ r, w.orders.find? orderId = some r → readable true r) →
      (k (w.orders.find? orderId)).Always (answering response) w post) :
    (perform (.transact (OrderRepository.get orderId)) >>= k).Always (answering response) w post := by
  refine always_transact hraise fun found t hfound => ?_
  obtain ⟨hread, he⟩ := get_ok.mp hfound
  cases he
  exact h hread

/-- What the claim asks of a submission that reached the venue, and when it gets it. -/
def Survives (w₀ : World true) (response : Response) (record : OrderRecord) (r : Except ServiceError TestnetOrderResult)
    (w' : World true) : Prop :=
  w'.sent = w₀.sent ++ [record] ∧
    ((∃ result, r = .ok result) ∧ Accounted response record w' ↔ Handled w₀.orders response)

omit [Runtime] in
theorem survives_error {record : OrderRecord} {e : ServiceError} {w' : World true} (hsent : w'.sent = w₀.sent ++ [record])
    (h : ¬ Handled w₀.orders response) : Survives w₀ response record (.error e) w' := by
  refine ⟨hsent, iff_of_false ?_ h⟩
  rintro ⟨⟨_, hr⟩, _⟩
  cases hr

theorem send_survives {record b : OrderRecord} (checksPerformed : List String) (hd : Drafted w₀ record.orderId w b)
    (hstate : b.state = .submitted) (hread : readable true b) :
    (send record checksPerformed).Always (answering response) w (Survives w₀ response record) := by
  have hid : b.orderId = record.orderId := orderId_of_find? hd.held
  have hsent : w.sent ++ [record] = w₀.sent ++ [record] := by rw [hd.sent]
  refine Always.bind (Always.caught (Always.perform ?_))
  rintro r w₁ ⟨observedAt, rfl, rfl⟩
  have hsettles := settles_iff w₀.orders response observedAt
  cases hanswer : answer response observedAt with
  | error e =>
      rw [hanswer] at hsettles
      cases hexchange : e.isExchangeError with
      | false =>
          dsimp only
          rw [hexchange]
          exact survives_error hsent fun h => Bool.false_ne_true (hexchange.symm.trans (hsettles.mpr h).1)
      | true =>
          dsimp only
          rw [hexchange]
          refine Always.bind (Always.perform ?_)
          rintro r w₂ ⟨⟨now, rfl⟩, rfl⟩
          refine Always.bind (Always.perform fun r w₃ hx => ?_)
          generalize hreason : s!"The submission did not return a usable answer: {e.text}" = reason at hx
          have hnoted : storable reason = storable e.text := by
            rw [← hreason]
            change storable ("The submission did not return a usable answer: " ++ e.text) = _
            rw [storable_append]
            rfl
          change (r, w₃) = commits (markUnknown record.orderId reason now) _ at hx
          rw [commits_markUnknown (v := w.receive record (.error e)) ⟨hd.held, hread⟩ hstate hd.venueOrderId, hnoted] at hx
          cases hstorable : storable e.text with
          | false =>
              rw [hstorable, if_neg (by decide)] at hx
              cases hx
              exact survives_error hsent fun h => Bool.false_ne_true (hstorable.symm.trans (hsettles.mpr h).2)
          | true =>
              rw [hstorable, if_pos rfl] at hx
              cases hx
              have hstored : Loads (w.orders.put (withUnknown b reason now)) record.orderId (withUnknown b reason now) :=
                loads_put hid hread
              refine Always.bind (Always.perform fun r w₄ hx => ?_)
              change (r, w₄) = commits _ _ at hx
              rw [commits_read (get_of_held hstored)] at hx
              cases hx
              exact ⟨hsent, iff_of_true ⟨⟨_, rfl⟩, _, hstored.1, .inl rfl⟩ (hsettles.mp ⟨hexchange, hstorable⟩)⟩
  | ok view =>
      rw [hanswer] at hsettles
      refine Always.bind (Always.perform ?_)
      rintro r w₂ ⟨⟨now, rfl⟩, rfl⟩
      refine Always.bind (Always.perform fun r w₃ hx => ?_)
      obtain ⟨hobserved, status, hstate'⟩ := answer_ok hanswer
      change (r, w₃) = commits (applyVenueAck record.orderId (view.venueOrderId.getD "") view.state now) _ at hx
      rcases commits_applyVenueAck (v := w.receive record (.ok view)) hd rfl hstate hread
        (canTransition_of_state? hstate') (view.venueOrderId.getD "") now with ⟨htakes, hacked⟩ | ⟨hnot, e, hraised⟩
      · rw [hacked] at hx
        cases hx
        have hstored : Loads (w.orders.put (withAck b (view.venueOrderId.getD "") view.state now)) record.orderId
            (withAck b (view.venueOrderId.getD "") view.state now) := loads_put hid hread
        refine ⟨hsent, iff_of_true ⟨⟨_, rfl⟩, _, hstored.1, .inr ⟨view, ?_, rfl, rfl⟩⟩ (hsettles.mp htakes)⟩
        rw [hobserved]
        exact hanswer
      · rw [hraised] at hx
        cases hx
        exact survives_error hsent fun h => hnot (hsettles.mpr h)

/-- An effect that hands nothing to the venue. -/
def Quiet : {α : Type} → Effect (RecordStore true) α → Prop
  | _, .submit _ => False
  | _, _ => True

/-- An effect that leaves the stored orders alone as well. -/
def Reads : {α : Type} → Effect (RecordStore true) α → Prop
  | _, .submit _ | _, .transact _ | _, .createOrGet _ => False
  | _, _ => True

/-- No order was handed to the venue, or one was, and survived what may be survived. -/
def Submitted (w₀ : World true) (response : Response) (r : Except ServiceError TestnetOrderResult) (w' : World true) :
    Prop := w'.sent = w₀.sent ∨ ∃ record, Survives w₀ response record r w'

theorem sent_of_quiet {f : Effect (RecordStore true) α} {r : Except ServiceError α} {w' : World true} (hf : Quiet f)
    (hs : w.sent = w₀.sent) (hx : answering response f w r w') : w'.sent = w₀.sent := by
  have hcommits : ∀ {α : Type} {step : OrderM (RecordStore true) α} {r : Except ServiceError α},
      (r, w') = commits step w → w'.sent = w₀.sent := by
    intro α step r h
    cases r with
    | error e => rw [commits_still h, hs]
    | ok a =>
        obtain ⟨t, _, _, rfl⟩ := commits_ok h
        exact hs
  cases f with
  | submit record => exact absurd hf id
  | transact step => exact hcommits hx
  | createOrGet intent =>
      obtain ⟨_, _, h⟩ := hx
      exact hcommits h
  | utcnow => rw [hx.2, hs]
  | _ =>
      obtain rfl : w' = w := hx
      exact hs

theorem eq_of_reads {f : Effect (RecordStore true) α} {r : Except ServiceError α} {w' : World true} (hf : Reads f)
    (hx : answering response f w r w') : w' = w := by
  cases f with
  | submit record => exact absurd hf id
  | transact step => exact absurd hf id
  | createOrGet intent => exact absurd hf id
  | utcnow => exact hx.2
  | _ => exact hx

theorem always_quiet {c : ServiceM (RecordStore true) TestnetOrderResult} (hc : c.Performs Quiet)
    (hs : w.sent = w₀.sent) : c.Always (answering response) w (Submitted w₀ response) :=
  (always_of_performs (I := fun w => w.sent = w₀.sent) (fun _ _ _ _ hf hi hx => sent_of_quiet hf hi hx) hc hs).mono
    fun _ _ h => .inl h

theorem always_reads {c : ServiceM (RecordStore true) α} {k : α → ServiceM (RecordStore true) β} (hc : c.Performs Reads)
    (hraise : ∀ e, post (.error e) w) (h : ∀ a, (k a).Always (answering response) w post) :
    (c >>= k).Always (answering response) w post := by
  refine Always.bind ((always_of_performs (I := fun w' => w' = w) (fun _ _ _ _ hf hi hx => ?_) hc rfl).mono ?_)
  · rw [eq_of_reads hf hx, hi]
  · rintro r w' rfl
    cases r with
    | error e => exact hraise e
    | ok a => exact h a

omit [Runtime] [Interpreter] in
theorem quiet_rejected (record : OrderRecord) (code : RiskRejectionCode) (detail : String) (now : Timestamp)
    (rejectionCode : Option RiskRejectionCode) (checksPerformed : List String) :
    (rejected (σ := RecordStore true) record code detail now rejectionCode checksPerformed).Performs Quiet :=
  performs_then trivial fun _ => performs_then trivial fun _ => trivial

omit [Runtime] [Interpreter] in
theorem reads_size (symbol : String) (margin leverage : Decimal) :
    (size (σ := RecordStore true) symbol margin leverage).Performs Reads := by
  refine performs_then trivial fun price => ?_
  cases price with
  | none => exact trivial
  | some price =>
      refine performs_bind (performs_caught (performs_perform trivial)) fun step => ?_
      cases step with
      | error e =>
          dsimp only
          split
          · exact trivial
          · exact trivial
      | ok step =>
          dsimp only
          split
          · exact trivial
          · split
            · exact trivial
            · split
              · exact trivial
              · exact trivial

variable {record b : OrderRecord} {checksPerformed : List String} {now : Timestamp} {symbol : String} {leverage : Decimal}
  {request : TestnetOrderRequest}

theorem place_submitted (hd : Drafted w₀ record.orderId w b) :
    (place request symbol record leverage checksPerformed now).Always (answering response) w (Submitted w₀ response) := by
  have hunsent : ∀ e, Submitted w₀ response (.error e) w := fun _ => .inl hd.sent
  refine always_reads (reads_size symbol request.margin leverage) hunsent fun sized => ?_
  cases sized with
  | none => exact always_quiet (quiet_rejected record _ _ now _ _) hd.sent
  | some sized =>
      obtain ⟨quantity, price⟩ := sized
      refine always_get hunsent fun _ => ?_
      rw [hd.held, Option.getD_some]
      refine always_transact hunsent fun stored t hstored => ?_
      obtain ⟨_, _, he⟩ := update_ok.mp hstored
      cases he
      have hid : b.orderId = record.orderId := orderId_of_find? hd.held
      have hsized : Drafted w₀ record.orderId _ (withExecution b quantity leverage now) :=
        hd.put hid hd.venueOrderId hd.reconciliationDetail
      refine always_transact (fun _ => .inl hsized.sent) fun moved t hmoved => ?_
      obtain ⟨r, hloads, _, _, he⟩ := move_ok.mp hmoved
      cases he
      have hr : r = withExecution b quantity leverage now := Option.some.inj (hloads.1.symm.trans (hid ▸ hsized.held))
      subst hr
      have hmoved : Drafted w₀ record.orderId _ (withMove (withExecution b quantity leverage now) .submitted now (some now)) :=
        hsized.put hid hd.venueOrderId hd.reconciliationDetail
      rw [← hid] at hmoved
      generalize hlast : withMove (withExecution b quantity leverage now) .submitted now (some now) = last at *
      have hnamed : last.orderId = b.orderId := by rw [← hlast]; rfl
      have hstate : last.state = .submitted := by rw [← hlast]; rfl
      refine always_get (fun _ => .inl hmoved.sent) fun hread => ?_
      have hfound := hmoved.held
      rw [← hnamed] at hmoved
      rw [show (withExecution b quantity leverage now).orderId = b.orderId from rfl, hfound, Option.getD_some]
      exact (send_survives checksPerformed hmoved hstate (hread last hfound)).mono fun r w' h => .inr ⟨last, h⟩

/-- What follows the ruling: the order is prepared, and then placed. -/
theorem submitRuled_submitted (hd : Drafted w₀ record.orderId w b) :
    (submitRuled request symbol record now).Always (answering response) w (Submitted w₀ response) := by
  have hunsent : ∀ e, Submitted w₀ response (.error e) w := fun _ => .inl hd.sent
  have hrefused : ∀ (code : RiskRejectionCode) (detail : String) (rejectionCode : Option RiskRejectionCode)
      (checksPerformed : List String), (rejected record code detail now rejectionCode checksPerformed).Always
        (answering response) w (Submitted w₀ response) :=
    fun _ _ _ _ => always_quiet (quiet_rejected ..) hd.sent
  refine always_reads (performs_perform trivial) hunsent fun ruled => ?_
  obtain ⟨verdict, detail⟩ := ruled
  cases verdict with
  | none => exact hrefused _ _ _ _
  | some verdict =>
      dsimp only
      split
      · exact hrefused _ _ _ _
      · split
        · exact hrefused _ _ _ _
        · refine always_reads (performs_caught (performs_perform trivial)) hunsent fun applied => ?_
          cases applied with
          | error e =>
              dsimp only
              split
              · exact hrefused _ _ _ _
              · exact .inl hd.sent
          | ok applied =>
              dsimp only
              split
              · exact hrefused _ _ _ _
              · refine always_reads (performs_caught (performs_then trivial fun _ => performs_perform trivial)) hunsent
                  fun confirmed => ?_
                cases confirmed with
                | error e =>
                    dsimp only
                    split
                    · exact hrefused _ _ _ _
                    · exact .inl hd.sent
                | ok confirmed =>
                    dsimp only
                    split
                    · exact hrefused _ _ _ _
                    · exact place_submitted hd

theorem submit_submitted (service : TestnetExecutionService) (request : TestnetOrderRequest) :
    (submit service request).Always (answering response) w₀ (Submitted w₀ response) := by
  have hunsent : ∀ r : Except ServiceError TestnetOrderResult, Submitted w₀ response r w₀ := fun _ => .inl rfl
  refine always_reads (performs_perform trivial) (fun _ => hunsent _) fun now => ?_
  split
  · exact hunsent _
  · refine always_reads (performs_caught (performs_perform trivial)) (fun _ => hunsent _) fun oneWay => ?_
    split
    · exact hunsent _
    · exact hunsent _
    · refine Always.bind (Always.perform ?_)
      rintro r w' ⟨orderId, hfresh, hx⟩
      cases r with
      | error e =>
          rw [commits_still hx]
          exact hunsent _
      | ok made =>
          obtain ⟨t, hstep, _, rfl⟩ := commits_ok hx
          obtain ⟨existing, _, _, he⟩ | ⟨_, _, _, he⟩ := addOrGet_ok.mp hstep
          · cases he
            exact .inl rfl
          · cases he
            have hd : Drafted w₀ orderId (w₀.commit (w₀.orders.put (build orderId _)))
                (build orderId (submitIntent service request (Runtime.upper request.symbol) now)) :=
              { sent := rfl
                fresh := hfresh
                others := fun other hne => find?_put_of_ne _ hne.symm
                held := find?_put_self _ _
                venueOrderId := rfl
                reconciliationDetail := rfl }
            refine always_transact (fun _ => .inl rfl) fun validating t hstep => ?_
            obtain ⟨r, hloads, _, _, he⟩ := move_ok.mp hstep
            cases he
            have hr := Option.some.inj (hloads.1.symm.trans hd.held)
            subst hr
            exact submitRuled_submitted (hd.put rfl rfl rfl)

/-- Whatever the venue answers to an order, the submission returns and accounts
for the order exactly where the answer is one that an order survives. -/
theorem submission_accounts_iff (service : TestnetExecutionService) (request : TestnetOrderRequest)
    (response : Response) (w w' : World true) (r : Except ServiceError TestnetOrderResult)
    (hrun : (submit service request).Runs (answering response) w r w') (hsent : w'.sent ≠ w.sent) :
    ∃ record, w'.sent = w.sent ++ [record] ∧
      ((∃ result, r = .ok result) ∧ Accounted response record w' ↔ Handled w.orders response) := by
  have hsubmitted : Submitted w response r w' := (submit_submitted service request).of_runs hrun
  exact hsubmitted.resolve_left hsent

/-- A world where everything is granted, and the venue answers with this response. -/
def answered (response : Response) : {β : Type} → Effect (RecordStore true) β → World true → Except ServiceError β × World true
  | _, .createOrGet intent, w => commits (createOrGet (unusedOrderId w.orders) intent) w
  | _, .transact step, w => commits step w
  | _, .submit record, w => (answer response 10, w.receive record (answer response 10))
  | _, f, w => grants (.error (.exchange "")) f w

theorem answering_answered (response : Response) {β : Type} (f : Effect (RecordStore true) β) (w : World true) :
    answering response f w (answered response f w).1 (answered response f w).2 := by
  cases f with
  | createOrGet intent => exact ⟨unusedOrderId w.orders, find?_unusedOrderId w.orders, rfl⟩
  | submit record => exact ⟨10, rfl, rfl⟩
  | utcnow => exact ⟨⟨10, rfl⟩, rfl⟩
  | _ => rfl

end Runs

def emptyWorld : World true := { orders := RecordStore.empty }

def exampleRun (response : Response) : Except ServiceError TestnetOrderResult × World true :=
  Submission.exampleSubmit.interp (@answered referenceRuntime referenceInterpreter response) emptyWorld

theorem exampleRun_runs (response : Response) :
    Submission.exampleSubmit.Runs (@answering referenceRuntime referenceInterpreter response) emptyWorld
      (exampleRun response).1 (exampleRun response).2 :=
  runs_interp (fun f w => @answering_answered referenceRuntime referenceInterpreter response _ f w) _ _

def filledResponse : Response where
  statusCode := 200
  body := some (.dict [("orderId", .int 42), ("clientOrderId", .text "aeth-1"), ("status", .text "FILLED"),
    ("executedQty", .text "0.5"), ("avgPrice", .text "100.0")])

theorem submission_accounts_filled : ∃ record, (exampleRun filledResponse).2.sent = [] ++ [record] ∧
    ((∃ result, (exampleRun filledResponse).1 = .ok result) ∧
      @Accounted referenceInterpreter filledResponse record (exampleRun filledResponse).2 ↔
        @Handled referenceInterpreter emptyWorld.orders filledResponse) :=
  @submission_accounts_iff referenceRuntime referenceInterpreter _ _ _ _ _ _ (exampleRun_runs filledResponse)
    fun h => absurd (congrArg List.length h) (by decide +kernel)

/-- A refusal whose code is no number. -/
def wordedResponse : Response where
  statusCode := 400
  body := some (.dict [("code", .text "x"), ("msg", .text "")])

/-- The refusal is an error that the submission does not expect, and the order stays as it was sent. -/
theorem worded_refusal_strands_order :
    ¬ ∀ (service : TestnetExecutionService) (request : TestnetOrderRequest) (response : Response) (w w' : World true)
      (r : Except ServiceError TestnetOrderResult),
      (@submit _ _ referenceRuntime service request).Runs (@answering referenceRuntime referenceInterpreter response) w r w' →
        w'.sent ≠ w.sent → ∃ record, w'.sent = w.sent ++ [record] ∧
          (∃ result, r = .ok result) ∧ @Accounted referenceInterpreter response record w' := by
  intro hclaim
  have hsent : (exampleRun wordedResponse).2.sent ≠ [] :=
    fun h => absurd (congrArg List.length h) (by decide +kernel)
  obtain ⟨_, _, ⟨result, hresult⟩, _⟩ := hclaim _ _ wordedResponse emptyWorld _ _ (exampleRun_runs wordedResponse) hsent
  have hraised : (exampleRun wordedResponse).1.toOption.isNone := by decide +kernel
  rw [hresult] at hraised
  cases hraised

end Aetheris.TestnetAnswers
