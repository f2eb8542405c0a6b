import Aetheris.Submission
import Aetheris.OrderWrites

namespace Aetheris.Acceptance

open Lib Coroutine Protocol Money Clock Enums OrderRecords OrderMachine OrderStore OrderEngine OrderCalls OrderWrites
open OrderIdentity RecordStore TestnetService TestnetWorld

variable {durable : Bool} {α β : Type}

/-- The venue has the order, by the id it gave it. -/
def Acknowledged (r : OrderRecord) : Prop :=
  (∃ venueOrderId ∈ r.venueOrderId, venueOrderId ≠ "") ∧
    r.state ∉ [OrderState.rejected, .unknown, .created, .validating]

instance (r : OrderRecord) : Decidable (Acknowledged r) :=
  inferInstanceAs (Decidable ((∃ venueOrderId ∈ r.venueOrderId, venueOrderId ≠ "") ∧ _))

/-- An answer to a submission that takes the order and names it. -/
def Vouches (view : VenueOrderView) : Prop :=
  view.venueOrderId.getD "" ≠ "" ∧ view.state ≠ .rejected ∧ view.state ≠ .unknown

/-- A replay meets an order the venue has or one that was rejected, and the
venue answers a submission with an id and a state that takes it. -/
def Meets : {β : Type} → Effect (RecordStore durable) β → Except ServiceError β → Prop
  | _, .createOrGet _, .ok (record, false) => record.state = .rejected ∨ Acknowledged record
  | _, .submit _, .ok view => Vouches view
  | _, _, _ => True

inductive Reply
  | submission (result : TestnetOrderResult)
  | cancellation (result : TestnetOrderResult)
  | sweep (report : ReconciliationSweep)
  | recovery (report : RecoveryReport)

inductive Calls [Runtime] : ServiceM (RecordStore durable) Reply → Prop
  | submit (service request) : Calls (do return .submission (← submit service request))
  | cancel (orderId) : Calls (do return .cancellation (← cancel orderId))
  | reconcileAll : Calls (do return .sweep (← reconcileAll))
  | recover (now) : Calls (do return .recovery (← perform (.transact (recover now))))

/-- `accepted` says of a record what the venue said of it. -/
structure Told (result : TestnetOrderResult) : Prop where
  accepted : result.accepted → ∃ r ∈ result.record, Acknowledged r
  refused : result.accepted = false → result.replayed = false → ∀ r ∈ result.record, ¬ Acknowledged r

def Reply.Told : Reply → Prop
  | .submission result => Acceptance.Told result
  | _ => True

/-- What a call knows of the order it created. -/
inductive Stage
  | created | underway | settled

def Stage.Fits (r : OrderRecord) : Stage → Prop
  | created => True
  | underway => r.state ≠ .created
  | settled => r.state = .rejected ∨ r.state = .unknown

structure Duty where
  orderId : String
  stage : Stage

def Holds : Option Duty → World durable → Prop
  | none, _ => True
  | some d, w => ∃ r, w.orders.find? d.orderId = some r ∧ d.stage.Fits r

def Apart : Option Duty → Option Duty → Prop
  | some d, some e => d.orderId ≠ e.orderId
  | _, _ => True

def protocol : Protocol (World durable) (Option Duty) where
  inv := fun _ => True
  holds := Holds
  apart := Apart
  apart_symm := by
    rintro (_ | d) (_ | e) h
    · trivial
    · trivial
    · trivial
    · exact h.symm

/-- Whoever writes the version, what its creator knows of the order stays so. -/
def Follows (r r' : OrderRecord) : Prop := ∀ stage : Stage, stage.Fits r → stage.Fits r'

theorem Follows.refl (r : OrderRecord) : Follows r r := fun _ h => h

theorem Follows.trans {a b c : OrderRecord} (h : Follows a b) (h' : Follows b c) : Follows a c :=
  fun stage hf => h' stage (h stage hf)

theorem follows_of_state {r r' : OrderRecord} (h : r'.state = r.state) : Follows r r' := by
  intro stage hf
  cases stage with
  | created => trivial
  | underway => exact fun he => hf (h.symm.trans he)
  | settled => exact hf.imp h.trans h.trans

theorem follows_of_canTransition {r r' : OrderRecord} (hc : canTransition r.state r'.state)
    (hr : r'.state ≠ .reconciling) : Follows r r' := by
  intro stage hf
  cases stage with
  | created => trivial
  | underway =>
      intro he
      rw [he, not_canTransition_created] at hc
      cases hc
  | settled =>
      rcases hf with hf | hf
      · rw [hf, not_canTransition_of_terminal rfl] at hc
        cases hc
      · rw [hf, canTransition_unknown_iff] at hc
        exact absurd hc hr

theorem follows_reconciled {r r' : OrderRecord} {venueView : Option VenueOrderView} {venueReachable : Bool}
    {now : Timestamp} (h : Applies (Reconcile.decide r venueView venueReachable) now r r') : Follows r r' := by
  cases h with
  | disputed | unanswered | repeated => exact follows_of_state rfl
  | moved target _ _ htarget _ hc =>
      refine follows_of_canTransition hc ?_
      rintro rfl
      cases Reconcile.decide_targetState htarget

/-- Rows that are not a call's own only go on. -/
def Keeps (own : Option Duty) (s t : RecordStore durable) : Prop :=
  ∀ orderId r, (∀ d ∈ own, d.orderId ≠ orderId) → s.find? orderId = some r →
    ∃ r', t.find? orderId = some r' ∧ Follows r r'

theorem Keeps.refl (own : Option Duty) (s : RecordStore durable) : Keeps own s s :=
  fun _ r _ hr => ⟨r, hr, .refl r⟩

theorem keeps_put_own {d : Duty} {s : RecordStore durable} {r : OrderRecord} (h : r.orderId = d.orderId) :
    Keeps (some d) s (s.put r) := by
  intro orderId q hne hq
  have hput : r.orderId ≠ orderId := h ▸ hne d rfl
  exact ⟨q, (find?_put_of_ne s hput).trans hq, .refl q⟩

theorem keeps_put_new {own : Option Duty} {s : RecordStore durable} {r : OrderRecord}
    (h : s.find? r.orderId = none) : Keeps own s (s.put r) := by
  intro orderId q _ hq
  have hput : r.orderId ≠ orderId := by
    rintro rfl
    rw [h] at hq
    cases hq
  exact ⟨q, (find?_put_of_ne s hput).trans hq, .refl q⟩

theorem Keeps.put {s : RecordStore durable} {r r' : OrderRecord} (hr : s.find? r.orderId = some r)
    (hid : r'.orderId = r.orderId) (h : Follows r r') : Keeps none s (s.put r') := by
  intro orderId q _ hq
  by_cases he : r'.orderId = orderId
  · rw [hid] at he
    subst he
    cases hr.symm.trans hq
    exact ⟨r', by rw [← hid, find?_put_self], h⟩
  · exact ⟨q, (find?_put_of_ne s he).trans hq, .refl q⟩

theorem Keeps.mono {s t : RecordStore durable} (h : Keeps none s t) (own : Option Duty) : Keeps own s t :=
  fun orderId r _ hr => h orderId r (fun _ hd => nomatch hd) hr

theorem Keeps.trans {s t u : RecordStore durable} (h : Keeps none s t) (h' : Keeps none t u) : Keeps none s u := by
  intro orderId r hne hr
  obtain ⟨r', hr', hf⟩ := h orderId r hne hr
  obtain ⟨r'', hr'', hf'⟩ := h' orderId r' hne hr'
  exact ⟨r'', hr'', hf.trans hf'⟩

theorem writes_keeps [Runtime] {op : Operation} {s t : RecordStore durable} (h : Writes op s t)
    (hb : op.builds = none) (hw : ∀ r r', Write op r r' → Follows r r') : Keeps none s t := by
  induction h with
  | done s => exact .refl none s
  | built hbuild =>
      rw [hb] at hbuild
      cases hbuild
  | written hr hwrite _ ih => exact (Keeps.put hr hwrite.orderId (hw _ _ hwrite)).trans ih

theorem moves_of_keeps {g g' : Option Duty} {w w' : World durable} (h : Keeps g w.orders w'.orders)
    (hg : Holds g' w') (hown : g' = none ∨ g'.map Duty.orderId = g.map Duty.orderId) :
    protocol.Moves g w g' w' where
  inv := trivial
  holds := hg
  frame := by
    rintro (_ | e) ha hh
    · trivial
    · obtain ⟨r, hr, hf⟩ := hh
      have hne : ∀ d ∈ g, d.orderId ≠ e.orderId := by
        rintro d rfl
        exact ha
      obtain ⟨r', hr', hfollows⟩ := h e.orderId r hne hr
      exact ⟨r', hr', hfollows e.stage hf⟩
  apart := by
    rintro (_ | e) ha _
    · cases g' <;> trivial
    · cases g' with
      | none => trivial
      | some d' =>
          cases g with
          | none => rcases hown with hown | hown <;> cases hown
          | some d =>
              rcases hown with hown | hown
              · cases hown
              · have hid : d'.orderId = d.orderId := by simpa using hown
                change d'.orderId ≠ e.orderId
                rw [hid]
                exact ha

theorem holds_of_keeps {g : Option Duty} {w w' : World durable} (h : Keeps none w.orders w'.orders) (hg : Holds g w) :
    Holds g w' := by
  cases g with
  | none => trivial
  | some d =>
      obtain ⟨r, hr, hf⟩ := hg
      obtain ⟨r', hr', hfollows⟩ := h d.orderId r (fun _ hd => nomatch hd) hr
      exact ⟨r', hr', hfollows d.stage hf⟩

theorem moves_create [Runtime] {w : World durable} {orderId : String} (intent : OrderIntent)
    (h : w.orders.find? orderId = none) : protocol.Moves none w (some ⟨orderId, .created⟩)
      (w.commit (w.orders.put (build orderId intent))) where
  inv := trivial
  holds := ⟨build orderId intent, find?_put_self w.orders (build orderId intent), trivial⟩
  frame := by
    intro e _ hh
    have hkeeps : Keeps none w.orders (w.orders.put (build orderId intent)) := keeps_put_new h
    exact holds_of_keeps hkeeps hh
  apart := by
    rintro (_ | e) _ hh
    · trivial
    · obtain ⟨r, hr, _⟩ := hh
      rintro rfl
      rw [h] at hr
      cases hr

section

variable [Runtime]

def meeting : Semantics (Effect (RecordStore durable)) ServiceError (World durable) :=
  fun f w r w' => exec f w r w' ∧ Meets f r

def Runs (g : Option Duty) (c : ServiceM (RecordStore durable) α) (post : α → Prop) : Prop :=
  protocol.Safe meeting c g (fun r _ => ∀ a, r = .ok a → post a)

/-- A computation that writes no order of its own. -/
def Harmless (c : ServiceM (RecordStore durable) α) : Prop :=
  ∀ g, protocol.Safe meeting c g (fun _ g' => g' = g)

variable {g : Option Duty} {post : β → Prop}

theorem harmless_ret (a : α) : Harmless (.ret a : ServiceM (RecordStore durable) α) := fun _ => rfl

theorem harmless_raise (e : ServiceError) : Harmless (.raise e : ServiceM (RecordStore durable) α) := fun _ => rfl

theorem Harmless.bind {c : ServiceM (RecordStore durable) α} {k : α → ServiceM (RecordStore durable) β}
    (hc : Harmless c) (hk : ∀ a, Harmless (k a)) : Harmless (c >>= k) := by
  intro g
  apply Safe.bind
  refine (hc g).mono fun r g' hg => ?_
  rw [hg]
  cases r with
  | ok a => exact hk a g
  | error e => rfl

theorem Harmless.caught {c : ServiceM (RecordStore durable) α} (hc : Harmless c) : Harmless c.caught :=
  fun g => Safe.caught (hc g)

theorem harmless_perform {f : Effect (RecordStore durable) α}
    (hf : ∀ (w : World durable) r w', exec f w r w' → Keeps none w.orders w'.orders) : Harmless (perform f) := by
  intro g
  apply Safe.perform
  rintro w r w' _ hg ⟨hx, _⟩
  have hkeeps := hf w r w' hx
  exact ⟨g, moves_of_keeps (hkeeps.mono g) (holds_of_keeps hkeeps hg) (.inr rfl), rfl⟩

theorem harmless_still (f : Effect (RecordStore durable) α) (hf : ∀ (w : World durable) r w', exec f w r w' → w' = w) :
    Harmless (perform f) := by
  refine harmless_perform fun w r w' hx => ?_
  rw [hf w r w' hx]
  exact .refl none w.orders

theorem harmless_transact {step : OrderM (RecordStore durable) α}
    (hstep : ∀ s a t, step s = .ok (a, t) → Keeps none s t) : Harmless (perform (.transact step)) := by
  refine harmless_perform fun w r w' hx => ?_
  change Commits step w r w' at hx
  unfold Commits at hx
  cases hs : step w.orders with
  | ok p =>
      rw [hs] at hx
      have hkeeps := hstep w.orders p.1 p.2 hs
      rcases hx with ⟨_, rfl⟩ | ⟨_, rfl | rfl⟩
      · exact hkeeps
      · exact .refl none w'.orders
      · exact hkeeps
  | error e =>
      rw [hs] at hx
      rw [hx.2]
      exact .refl none w.orders

/-- A read writes nothing. -/
theorem harmless_read {step : OrderM (RecordStore durable) α} (hstep : ∀ s a t, step s = .ok (a, t) → t = s) :
    Harmless (perform (.transact step)) := by
  refine harmless_transact fun s a t hs => ?_
  rw [hstep s a t hs]
  exact .refl none s

theorem harmless_operation (op : Operation) {step : OrderM (RecordStore durable) α}
    (hop : OrderWrites.perform op = quietly step) (hb : op.builds = none)
    (hw : ∀ r r', Write op r r' → Follows r r') : Harmless (perform (.transact step)) := by
  refine harmless_transact fun s a t hs => ?_
  have hdone : OrderWrites.perform op s = .ok ((), t) := by
    rw [hop]
    exact quietly_ok.mpr ⟨a, hs⟩
  exact writes_keeps (perform_writes hdone) hb hw

theorem harmless_get (orderId : String) :
    Harmless (perform (.transact (OrderRepository.get orderId : OrderM (RecordStore durable) _))) := by
  refine harmless_read fun s a t hs => ?_
  obtain ⟨_, he⟩ := get_ok.mp hs
  cases he
  rfl

theorem harmless_markUnknown (orderId reason : String) (now : Timestamp) :
    Harmless (perform (.transact (markUnknown (σ := RecordStore durable) orderId reason now))) := by
  refine harmless_operation (.markUnknown orderId reason now) rfl rfl fun r r' hw => ?_
  cases hw with
  | unknown hc => exact follows_of_canTransition hc (by simp [withUnknown])

theorem harmless_reconcile (orderId : String) (venueView : Option VenueOrderView) (venueReachable : Bool)
    (now : Timestamp) : Harmless (perform (.transact
      (OrderEngine.reconcile (σ := RecordStore durable) orderId venueView venueReachable now))) := by
  refine harmless_operation (.reconcile orderId venueView venueReachable now) rfl rfl fun r r' hw => ?_
  cases hw with
  | reconciled happly => exact follows_reconciled happly

theorem harmless_recover (now : Timestamp) :
    Harmless (perform (.transact (OrderEngine.recover (σ := RecordStore durable) now))) := by
  refine harmless_operation (.recover now) rfl rfl fun r r' hw => ?_
  cases hw with
  | interrupted _ hc => exact follows_of_canTransition hc (by simp [withUnknown])
  | damaged => exact follows_of_state rfl

theorem harmless_recordUnreadable (orderId detail : String) (now : Timestamp) : Harmless (perform (.transact
    (OrderRepository.recordUnreadable orderId detail now : OrderM (RecordStore durable) Unit))) := by
  refine harmless_transact fun s a t hs => ?_
  obtain ⟨_, r, hr, he⟩ := recordUnreadable_ok.mp hs
  cases he
  have hrow : s.find? r.orderId = some r := by rw [orderId_of_find? hr, hr]
  exact .put hrow rfl (follows_of_state rfl)

theorem harmless_utcnow : Harmless (perform (.utcnow : Effect (RecordStore durable) Timestamp)) :=
  harmless_still .utcnow fun _ _ _ hx => hx

theorem cancel_harmless (orderId : String) : Harmless (cancel (σ := RecordStore durable) orderId) := by
  refine (harmless_get orderId).bind ?_
  rintro (_ | record)
  · exact harmless_ret _
  · dsimp only
    split
    · exact harmless_ret _
    · refine harmless_utcnow.bind fun now => ?_
      refine (harmless_still (.cancel _ _) ?_).caught.bind ?_
      · exact fun _ _ _ hx => hx
      rintro (e | view)
      · dsimp only
        split
        · refine (harmless_markUnknown _ _ now).bind fun _ => ?_
          exact (harmless_get orderId).bind fun _ => harmless_ret _
        · exact harmless_raise e
      · exact (harmless_reconcile _ _ _ now).bind fun _ => harmless_ret _

theorem queryAll_harmless (records : List OrderRecord) (answers : Answers) (unreachable : List String) :
    Harmless (queryAll (σ := RecordStore durable) records answers unreachable) := by
  induction records generalizing answers unreachable with
  | nil => exact harmless_ret _
  | cons record rest ih =>
      refine (harmless_still (.query _ _) ?_).caught.bind ?_
      · exact fun _ _ _ hx => hx
      rintro (e | view)
      · dsimp only
        split
        · exact ih _ _
        · exact harmless_raise e
      · exact ih _ _

theorem recordReset_harmless (vanished : Nat) (now : Timestamp) (orderIds : List String) :
    Harmless (recordReset (σ := RecordStore durable) vanished now orderIds) := by
  induction orderIds with
  | nil => exact harmless_ret _
  | cons orderId rest ih => exact (harmless_recordUnreadable orderId _ now).bind fun _ => ih

theorem settleAll_harmless (answers : Answers) (unreachable : List String) (now : Timestamp)
    (records : List OrderRecord) (resolved : Nat) :
    Harmless (settleAll (σ := RecordStore durable) answers unreachable now records resolved) := by
  induction records generalizing resolved with
  | nil => exact harmless_ret _
  | cons record rest ih =>
      rw [settleAll]
      split
      · exact (harmless_reconcile _ _ _ now).bind fun _ => ih _
      · exact (harmless_reconcile _ _ _ now).bind fun _ => ih _

theorem reconcileAll_harmless : Harmless (reconcileAll (σ := RecordStore durable)) := by
  refine harmless_utcnow.bind fun now => ?_
  refine (harmless_read ?_).bind fun scan => ?_
  · intro s a t hs
    cases hs
    rfl
  refine (queryAll_harmless _ _ _).bind ?_
  rintro ⟨answers, unreachable⟩
  dsimp only [conclude]
  split
  · exact (recordReset_harmless _ now _).bind fun _ => harmless_ret _
  · exact (settleAll_harmless _ _ now _ _).bind fun _ => harmless_ret _

theorem runs_harmless {c : ServiceM (RecordStore durable) α} {k : α → ServiceM (RecordStore durable) β}
    (hc : Harmless c) (hk : ∀ a, Runs g (k a) post) : Runs g (c >>= k) post := by
  apply Safe.bind
  refine (hc g).mono fun r g' hg => ?_
  rw [hg]
  cases r with
  | ok a => exact hk a
  | error e => exact fun _ he => nomatch he

theorem runs_ret {b : β} (h : post b) : Runs g (.ret b : ServiceM (RecordStore durable) β) post := by
  intro a he
  cases he
  exact h

theorem runs_raise (e : ServiceError) : Runs g (.raise e : ServiceM (RecordStore durable) β) post :=
  fun _ he => nomatch he

omit [Runtime] in
theorem moves_commits (next : α → Option Duty → Prop) {step : OrderM (RecordStore durable) α}
    {w w' : World durable} {r : Except ServiceError α} (hg : Holds g w) (hx : Commits step w r w')
    (h : ∀ a t, step w.orders = .ok (a, t) → ∃ g', protocol.Moves g w g' (w.commit t) ∧ next a g') :
    ∃ g', protocol.Moves g w g' w' ∧ ∀ a, r = .ok a → next a g' := by
  have hstay : protocol.Moves g w g w := moves_of_keeps (.refl g w.orders) hg (.inr rfl)
  unfold Commits at hx
  cases hs : step w.orders with
  | ok p =>
      obtain ⟨a, t⟩ := p
      rw [hs] at hx
      obtain ⟨g', hm, hk⟩ := h a t hs
      rcases hx with ⟨rfl, rfl⟩ | ⟨⟨message, rfl⟩, rfl | rfl⟩
      · exact ⟨g', hm, fun _ he => by cases he; exact hk⟩
      · exact ⟨g, hstay, fun _ he => nomatch he⟩
      · exact ⟨g', hm, fun _ he => nomatch he⟩
  | error e =>
      rw [hs] at hx
      obtain ⟨rfl | ⟨message, rfl⟩, rfl⟩ := hx
      · exact ⟨g, hstay, fun _ he => nomatch he⟩
      · exact ⟨g, hstay, fun _ he => nomatch he⟩

theorem runs_transact {d : Duty} (stage : Stage) {step : OrderM (RecordStore durable) α}
    {k : α → ServiceM (RecordStore durable) β}
    (h : ∀ s r a t, s.find? d.orderId = some r → d.stage.Fits r → step s = .ok (a, t) →
      (∃ r', t = s.put r' ∧ r'.orderId = d.orderId ∧ stage.Fits r') ∧
        Runs (some ⟨d.orderId, stage⟩) (k a) post) :
    Runs (some d) (perform (.transact step) >>= k) post := by
  apply Safe.bind
  apply Safe.perform
  rintro w r w' _ hg ⟨hx, _⟩
  have hmoves : ∃ g', protocol.Moves (some d) w g' w' ∧ ∀ a, r = .ok a → Runs g' (k a) post := by
    refine moves_commits (fun a g' => Runs g' (k a) post) hg hx fun a t hs => ?_
    obtain ⟨r, hr, hf⟩ := hg
    obtain ⟨⟨r', rfl, hid, hf'⟩, hk⟩ := h w.orders r a t hr hf hs
    have hput : (w.orders.put r').find? d.orderId = some r' := by rw [← hid, find?_put_self]
    have hholds : Holds (some ⟨d.orderId, stage⟩) (w.commit (w.orders.put r')) := ⟨r', hput, hf'⟩
    exact ⟨_, moves_of_keeps (keeps_put_own hid) hholds (.inr rfl), hk⟩
  obtain ⟨g', hm, hk⟩ := hmoves
  refine ⟨g', hm, ?_⟩
  cases r with
  | ok a => exact hk a rfl
  | error e => exact fun _ he => nomatch he

/-- A call stores a version of its own order over an edge of the machine. -/
theorem runs_write {d : Duty} (stage : Stage) (write : OrderRecord → OrderRecord)
    {step : OrderM (RecordStore durable) OrderRecord} {k : OrderRecord → ServiceM (RecordStore durable) β}
    (hstep : ∀ s p, step s = .ok p →
      ∃ r, Loads s d.orderId r ∧ canTransition r.state (write r).state ∧ Puts s (write r) p)
    (hid : ∀ r, (write r).orderId = r.orderId)
    (hwrite : ∀ r, d.stage.Fits r → canTransition r.state (write r).state → stage.Fits (write r))
    (hk : ∀ r, d.stage.Fits r → canTransition r.state (write r).state →
      Runs (some ⟨d.orderId, stage⟩) (k (write r)) post) :
    Runs (some d) (perform (.transact step) >>= k) post := by
  refine runs_transact stage fun s r a t hr hf hs => ?_
  obtain ⟨q, hl, hc, _, he⟩ := hstep s (a, t) hs
  cases hl.1.symm.trans hr
  cases he
  exact ⟨⟨_, rfl, (hid r).trans hl.orderId, hwrite r hf hc⟩, hk r hf hc⟩

theorem runs_get {d : Duty} {k : Option OrderRecord → ServiceM (RecordStore durable) β}
    (hk : ∀ r, r.orderId = d.orderId → d.stage.Fits r → Runs (some d) (k (some r)) post) :
    Runs (some d) (perform (.transact (OrderRepository.get d.orderId)) >>= k) post := by
  apply Safe.bind
  apply Safe.perform
  rintro w r w' _ hg ⟨hx, _⟩
  have hmoves : ∃ g', protocol.Moves (some d) w g' w' ∧ ∀ a, r = .ok a → Runs g' (k a) post := by
    refine moves_commits (fun a g' => Runs g' (k a) post) hg hx fun a t hs => ?_
    obtain ⟨_, he⟩ := get_ok.mp hs
    cases he
    obtain ⟨r, hr, hf⟩ := hg
    rw [hr]
    have hstay : protocol.Moves (some d) w (some d) (w.commit w.orders) :=
      moves_of_keeps (.refl (some d) w.orders) ⟨r, hr, hf⟩ (.inr rfl)
    exact ⟨some d, hstay, hk r (orderId_of_find? hr) hf⟩
  obtain ⟨g', hm, hk⟩ := hmoves
  refine ⟨g', hm, ?_⟩
  cases r with
  | ok a => exact hk a rfl
  | error e => exact fun _ he => nomatch he

omit [Runtime] in
theorem not_acknowledged_of_settled {r : OrderRecord} (h : Stage.settled.Fits r) : ¬ Acknowledged r := by
  rintro ⟨_, hstate⟩
  rcases h with h | h
  · simp [h] at hstate
  · simp [h] at hstate

omit [Runtime] in
theorem acknowledged_withAck {r : OrderRecord} {view : VenueOrderView} {now : Timestamp} (hv : Vouches view)
    (hr : Stage.underway.Fits r) (hc : canTransition r.state view.state) :
    Acknowledged (withAck r (view.venueOrderId.getD "") view.state now) := by
  obtain ⟨hid, hrejected, hunknown⟩ := hv
  refine ⟨⟨_, rfl, hid⟩, ?_⟩
  have hcreated : view.state ≠ .created := by
    intro he
    rw [he, not_canTransition_created] at hc
    cases hc
  have hvalidating : view.state ≠ .validating := by
    intro he
    rw [he, canTransition_validating_iff] at hc
    exact hr hc
  simp [withAck, hrejected, hunknown, hcreated, hvalidating]

omit [Runtime] in
theorem told_of_settled {r : OrderRecord} (h : Stage.settled.Fits r) {result : TestnetOrderResult}
    (ha : result.accepted = false) (hr : result.record = some r) : Told result := by
  refine ⟨fun h => ?_, fun _ _ q hq => ?_⟩
  · rw [ha] at h
    cases h
  · rw [hr] at hq
    cases hq
    exact not_acknowledged_of_settled h

theorem rejected_told {stage : Stage} (record : OrderRecord) (code : RiskRejectionCode) (detail : String)
    (now : Timestamp) (rejectionCode : Option RiskRejectionCode) (checksPerformed : List String) :
    Runs (some ⟨record.orderId, stage⟩)
      (rejected (σ := RecordStore durable) record code detail now rejectionCode checksPerformed) Told := by
  apply runs_write .settled (fun r => withRiskRejection r code detail now)
  · exact fun s p hp => markRiskRejected_ok.mp hp
  · exact fun _ => rfl
  · exact fun _ _ _ => .inl rfl
  · intro _ _ _
    exact runs_get fun r _ hf => runs_ret (told_of_settled hf rfl rfl)

theorem send_told (record : OrderRecord) (checksPerformed : List String) :
    Runs (some ⟨record.orderId, .underway⟩) (send (σ := RecordStore durable) record checksPerformed) Told := by
  apply Safe.bind
  apply Safe.caught
  apply Safe.perform
  rintro w r w' _ hg ⟨hx, hmeets⟩
  have hkeeps : Keeps none w.orders w'.orders := by
    cases hx
    cases r <;> exact .refl none w.orders
  have hg : Holds (some ⟨record.orderId, .underway⟩) w := hg
  refine ⟨_, moves_of_keeps (hkeeps.mono _) (holds_of_keeps hkeeps hg) (.inr rfl), ?_⟩
  cases r with
  | error e =>
      dsimp only
      split
      · refine runs_harmless harmless_utcnow fun now => ?_
        apply runs_write .settled (fun r => withUnknown r _ now)
        · exact fun s p hp => markUnknown_ok.mp hp
        · exact fun _ => rfl
        · exact fun _ _ _ => .inr rfl
        · intro _ _ _
          exact runs_get fun r _ hf => runs_ret (told_of_settled hf rfl rfl)
      · exact runs_raise e
  | ok view =>
      refine runs_harmless harmless_utcnow fun now => ?_
      apply runs_write .created (fun r => withAck r (view.venueOrderId.getD "") view.state now)
      · exact fun s p hp => applyVenueAck_ok.mp hp
      · exact fun _ => rfl
      · exact fun _ _ _ => trivial
      · intro r hf hc
        exact runs_ret ⟨fun _ => ⟨_, rfl, acknowledged_withAck hmeets hf hc⟩, fun h => nomatch h⟩

theorem size_harmless (symbol : String) (margin leverage : Decimal) :
    Harmless (size (σ := RecordStore durable) symbol margin leverage) := by
  refine (harmless_still (.lastPrice symbol) ?_).bind ?_
  · exact fun _ _ _ hx => hx
  rintro (_ | price)
  · exact harmless_ret _
  · refine (harmless_still (.stepSize symbol) ?_).caught.bind ?_
    · exact fun _ _ _ hx => hx
    rintro (e | step)
    · dsimp only
      split
      · exact harmless_ret _
      · exact harmless_raise e
    · dsimp only
      split
      · exact harmless_ret _
      · split
        · exact harmless_raise _
        · split <;> exact harmless_ret _

theorem place_told (request : TestnetOrderRequest) (symbol : String) (record : OrderRecord) (leverage : Decimal)
    (checksPerformed : List String) (now : Timestamp) : Runs (some ⟨record.orderId, .underway⟩)
      (place (σ := RecordStore durable) request symbol record leverage checksPerformed now) Told := by
  refine runs_harmless (size_harmless symbol request.margin leverage) ?_
  rintro (_ | ⟨quantity, price⟩)
  · exact rejected_told record _ _ now _ _
  · refine runs_get fun found hid hf => ?_
    refine runs_transact .underway fun s r a t hr _ hs => ?_
    obtain ⟨_, _, he⟩ := update_ok.mp hs
    cases he
    refine ⟨⟨_, rfl, hid, hf⟩, ?_⟩
    have hown : found.orderId = record.orderId := hid
    rw [← hown]
    apply runs_write .underway (fun r => withMove r .submitted now (some now))
    · exact fun s p hp => move_ok.mp hp
    · exact fun _ => rfl
    · exact fun _ _ _ => by simp [Stage.Fits, withMove]
    · intro _ _ _
      refine runs_get fun r hid' _ => ?_
      change Runs (some ⟨found.orderId, .underway⟩) (send r checksPerformed) Told
      have hsame : found.orderId = r.orderId := hid'.symm
      rw [hsame]
      exact send_told r checksPerformed

theorem confirmMargin_told (request : TestnetOrderRequest) (symbol : String) (record : OrderRecord)
    (leverage : Decimal) (checksPerformed : List String) (now : Timestamp) :
    Runs (some ⟨record.orderId, .underway⟩)
      (confirmMargin (σ := RecordStore durable) request symbol record leverage checksPerformed now) Told := by
  have hestablished : Harmless (do
      let _ ← perform (.setMarginMode symbol .isolated)
      perform (.marginMode symbol) : ServiceM (RecordStore durable) MarginMode) := by
    refine (harmless_still (.setMarginMode symbol .isolated) ?_).bind fun _ => harmless_still (.marginMode symbol) ?_
    · exact fun _ _ _ hx => hx
    · exact fun _ _ _ hx => hx
  refine runs_harmless hestablished.caught ?_
  rintro (e | confirmed)
  · dsimp only
    split
    · exact rejected_told record _ _ now _ _
    · exact runs_raise e
  · dsimp only
    split
    · exact rejected_told record _ _ now _ _
    · exact place_told request symbol record leverage checksPerformed now

theorem confirmLeverage_told (request : TestnetOrderRequest) (symbol : String) (record : OrderRecord)
    (approvedLeverage : Decimal) (checksPerformed : List String) (now : Timestamp) :
    Runs (some ⟨record.orderId, .underway⟩)
      (confirmLeverage (σ := RecordStore durable) request symbol record approvedLeverage checksPerformed now) Told := by
  refine runs_harmless (harmless_still (.setLeverage symbol approvedLeverage) ?_).caught ?_
  · exact fun _ _ _ hx => hx
  rintro (e | applied)
  · dsimp only
    split
    · exact rejected_told record _ _ now _ _
    · exact runs_raise e
  · dsimp only
    split
    · exact rejected_told record _ _ now _ _
    · exact confirmMargin_told request symbol record applied checksPerformed now

theorem submitRuled_told (request : TestnetOrderRequest) (symbol : String) (record : OrderRecord) (now : Timestamp) :
    Runs (some ⟨record.orderId, .underway⟩)
      (submitRuled (σ := RecordStore durable) request symbol record now) Told := by
  refine runs_harmless (harmless_still (.rule request record now) ?_) ?_
  · exact fun _ _ _ hx => hx
  rintro ⟨_ | verdict, detail⟩
  · exact rejected_told record _ _ now _ _
  · dsimp only
    split
    · exact rejected_told record _ _ now _ _
    · cases verdict.leverage.approvedLeverage with
      | none => exact rejected_told record _ _ now _ _
      | some approvedLeverage => exact confirmLeverage_told request symbol record approvedLeverage _ now

/-- A new order is nobody else's, and a replay meets what the condition grants. -/
theorem runs_createOrGet {intent : OrderIntent} {k : OrderRecord × Bool → ServiceM (RecordStore durable) β}
    (hreplay : ∀ record, record.state = .rejected ∨ Acknowledged record → Runs none (k (record, false)) post)
    (hcreated : ∀ orderId, Runs (some ⟨orderId, .created⟩) (k (build orderId intent, true)) post) :
    Runs none (perform (.createOrGet intent) >>= k) post := by
  apply Safe.bind
  apply Safe.perform
  rintro w r w' _ hg ⟨⟨orderId, hid, hx⟩, hmeets⟩
  have hg : Holds none w := trivial
  have hmoves : ∃ g', protocol.Moves none w g' w' ∧ ∀ a, r = .ok a →
      (a.2 = false → a.1.state = .rejected ∨ Acknowledged a.1) → Runs g' (k a) post := by
    refine moves_commits (fun a g' => (a.2 = false → a.1.state = .rejected ∨ Acknowledged a.1) → Runs g' (k a) post)
      hg hx fun a t hs => ?_
    rcases addOrGet_ok.mp hs with ⟨existing, _, _, he⟩ | ⟨_, _, _, he⟩
    · cases he
      exact ⟨none, moves_of_keeps (.refl none w.orders) trivial (.inl rfl), fun hmet => hreplay existing (hmet rfl)⟩
    · cases he
      exact ⟨_, moves_create intent hid, fun _ => hcreated orderId⟩
  obtain ⟨g', hm, hk⟩ := hmoves
  refine ⟨g', hm, ?_⟩
  cases r with
  | ok a =>
      refine hk a rfl ?_
      obtain ⟨record, created⟩ := a
      rintro rfl
      exact hmeets
  | error e => exact fun _ he => nomatch he

theorem submit_told (service : TestnetExecutionService) (request : TestnetOrderRequest) :
    Runs none (submit (σ := RecordStore durable) service request) Told := by
  refine runs_harmless harmless_utcnow fun now => ?_
  dsimp only
  split
  · exact runs_ret ⟨fun h => (nomatch h), fun _ _ _ hr => nomatch hr⟩
  · refine runs_harmless (harmless_still .requireOneWayMode ?_).caught ?_
    · exact fun _ _ _ hx => hx
    rintro (e | _)
    · cases e with
      | hedgeMode message => exact runs_ret ⟨fun h => (nomatch h), fun _ _ _ hr => nomatch hr⟩
      | _ => exact runs_raise _
    · apply runs_createOrGet
      · intro record hmet
        refine runs_ret ⟨fun haccepted => ⟨record, rfl, ?_⟩, fun _ h => nomatch h⟩
        rcases hmet with hrejected | hacknowledged
        · rw [hrejected] at haccepted
          cases haccepted
        · exact hacknowledged
      · intro orderId
        apply runs_write .underway (fun r => withMove r .validating now none)
        · exact fun s p hp => move_ok.mp hp
        · exact fun _ => rfl
        · exact fun _ _ _ => by simp [Stage.Fits, withMove]
        · exact fun _ _ _ => submitRuled_told request _ _ now

theorem calls_begin (c : ServiceM (RecordStore durable) Reply) (hc : Calls c) :
    protocol.Begins meeting (fun r => ∀ reply, r = .ok reply → reply.Told) c := by
  have hothers : ∀ {α : Type} {c : ServiceM (RecordStore durable) α} {wrap : α → Reply}, Harmless c →
      (∀ a, (wrap a).Told) → Runs none (do return wrap (← c)) Reply.Told :=
    fun hc htold => runs_harmless hc fun a => runs_ret (htold a)
  refine ⟨none, fun _ => trivial, fun _ => trivial, ?_⟩
  cases hc with
  | submit service request =>
      apply Safe.bind
      refine (submit_told service request).mono fun r g hr => ?_
      cases r with
      | ok result => exact runs_ret (hr result rfl)
      | error e => exact fun _ he => nomatch he
  | cancel orderId => exact hothers (cancel_harmless orderId) fun _ => trivial
  | reconcileAll => exact hothers reconcileAll_harmless fun _ => trivial
  | recover now => exact hothers (harmless_recover now) fun _ => trivial

omit [Runtime] in
def Returned (pool : List (ServiceM (RecordStore durable) Reply)) (result : TestnetOrderResult) : Prop :=
  .ret (.submission result) ∈ pool

omit [Runtime] in
/-- What an answer about an order at the venue would change of its record. -/
def Learned (before after : OrderRecord) : Prop :=
  after.state ≠ before.state ∨ after.venueOrderId ≠ before.venueOrderId

theorem reachable_told {w : World durable} {c : World durable × List (ServiceM (RecordStore durable) Reply)}
    (h : Reachable meeting Calls w c) {result : TestnetOrderResult} (hr : Returned c.2 result) : Told result :=
  (reachable_delivers calls_begin trivial h).2.returned hr _ rfl

/-- While replays meet only orders the venue has or that were rejected, and the
venue takes and names what it acknowledges, `accepted` is the venue's word. -/
theorem accepted_means_acknowledged (w : World durable)
    (c d : World durable × List (ServiceM (RecordStore durable) Reply)) (h : Reachable meeting Calls w c)
    (hd : Relation.ReflTransGen (Step meeting Calls) c d) :
    (∀ result, Returned d.2 result → result.accepted → ∃ r ∈ result.record, Acknowledged r) ∧
      ∀ first again before after, Returned c.2 first → first.replayed = false → first.accepted = false →
        Returned d.2 again → again.replayed → again.accepted → first.record = some before →
        again.record = some after → after.orderId = before.orderId → Learned before after := by
  have hall : Reachable meeting Calls w d := h.trans hd
  refine ⟨fun result hr => (reachable_told hall hr).accepted, ?_⟩
  intro first again before after hfirst hfresh hrefused hagain _ haccepted hbefore hafter _
  obtain ⟨r, hr, hacknowledged⟩ := (reachable_told hall hagain).accepted haccepted
  have hunheard := (reachable_told h hfirst).refused hrefused hfresh before hbefore
  rw [hafter] at hr
  cases hr
  by_contra hsame
  rw [Learned, not_or, not_not, not_not] at hsame
  rw [Acknowledged, hsame.1, hsame.2] at hacknowledged
  exact hunheard hacknowledged

end

def Reply.result? : Reply → Option TestnetOrderResult
  | .submission result => some result
  | _ => none

theorem returned_interp {exec : Semantics (Effect (RecordStore durable)) ServiceError (World durable)}
    {starts : ServiceM (RecordStore durable) Reply → Prop}
    {env : {β : Type} → Effect (RecordStore durable) β → World durable → Except ServiceError β × World durable}
    (henv : ∀ {β : Type} (f : Effect (RecordStore durable) β) w, exec f w (env f w).1 (env f w).2)
    {w₀ w : World durable} {pool : List (ServiceM (RecordStore durable) Reply)}
    (h : Reachable exec starts w₀ (w, pool)) {c : ServiceM (RecordStore durable) Reply} (hc : starts c)
    {p : TestnetOrderResult → Bool}
    (hp : ((c.interp env w).1.toOption.bind Reply.result?).any p) :
    ∃ result, p result ∧ Reachable exec starts w₀ ((c.interp env w).2, .ret (.submission result) :: pool) := by
  have hreach := reachable_interp exec starts henv h hc
  cases hreply : (c.interp env w).1 with
  | error e =>
      rw [hreply] at hp
      cases hp
  | ok reply =>
      rw [hreply] at hreach hp
      cases reply with
      | submission result => exact ⟨result, hp, hreach⟩
      | _ => cases hp

def exampleCall : ServiceM (RecordStore true) Reply := do return .submission (← Submission.exampleSubmit)

theorem exampleCall_calls : @Calls true referenceRuntime exampleCall :=
  @Calls.submit true referenceRuntime ⟨"acct", true⟩ Submission.exampleRequest

def acceptedView : VenueOrderView where
  clientOrderId := "aeth-26e742032342c67b1c32"
  venueOrderId := some "v1"
  state := .accepted
  observedAt := 4
  filledQuantity_nonneg := le_refl 0

/-- The database is lost when a replay would meet any other order. -/
def orLost (w : World true) (answer : Except ServiceError (OrderRecord × Bool) × World true) :
    Except ServiceError (OrderRecord × Bool) × World true :=
  match answer.1 with
  | .ok (record, false) =>
      if record.state = .rejected ∨ Acknowledged record then answer
      else (.error (.order (.databaseUnavailable "connection lost")), w)
  | _ => answer

def meets : {β : Type} → Effect (RecordStore true) β → World true → Except ServiceError β × World true
  | _, .createOrGet intent, w => orLost w (@grants referenceRuntime (.ok acceptedView) _ (.createOrGet intent) w)
  | _, f, w => @grants referenceRuntime (.ok acceptedView) _ f w

theorem meeting_orLost {intent : OrderIntent} {w : World true}
    {answer : Except ServiceError (OrderRecord × Bool) × World true}
    (h : @exec true referenceRuntime _ (.createOrGet intent) w answer.1 answer.2) :
    @meeting true referenceRuntime _ (.createOrGet intent) w (orLost w answer).1 (orLost w answer).2 := by
  obtain ⟨reply, w'⟩ := answer
  match reply with
  | .ok (record, true) => exact ⟨h, trivial⟩
  | .error e => exact ⟨h, trivial⟩
  | .ok (record, false) =>
      by_cases hmet : record.state = .rejected ∨ Acknowledged record
      · have hsame : orLost w (.ok (record, false), w') = (.ok (record, false), w') := if_pos hmet
        rw [hsame]
        exact ⟨h, hmet⟩
      · have hlost : orLost w (.ok (record, false), w') =
            (.error (.order (.databaseUnavailable "connection lost")), w) := if_neg hmet
        rw [hlost]
        obtain ⟨orderId, hid, hx⟩ := h
        refine ⟨⟨orderId, hid, ?_⟩, trivial⟩
        unfold Commits
        split
        · exact .inr ⟨⟨_, rfl⟩, .inl rfl⟩
        · exact ⟨.inr ⟨_, rfl⟩, rfl⟩

theorem meeting_meets {β : Type} (f : Effect (RecordStore true) β) (w : World true) :
    @meeting true referenceRuntime _ f w (meets f w).1 (meets f w).2 := by
  cases f with
  | createOrGet intent =>
      exact meeting_orLost (@exec_grants referenceRuntime (.ok acceptedView) _ (.createOrGet intent) w)
  | submit record =>
      exact ⟨@exec_grants referenceRuntime (.ok acceptedView) _ (.submit record) w,
        show Vouches acceptedView from ⟨by decide, by decide, by decide⟩⟩
  | _ => exact ⟨@exec_grants referenceRuntime (.ok acceptedView) _ _ w, trivial⟩

theorem accepted_means_acknowledged_replayed :
    ∃ w : World true, ∃ result, result.accepted ∧ result.replayed ∧
      (∃ pool, Reachable (@meeting true referenceRuntime) (@Calls true referenceRuntime) ⟨empty, [], []⟩ (w, pool) ∧
        Returned pool result) ∧ ∃ r ∈ result.record, Acknowledged r := by
  have hempty : Reachable (@meeting true referenceRuntime) (@Calls true referenceRuntime) ⟨empty, [], []⟩
      (⟨empty, [], []⟩, []) := .refl
  obtain ⟨_, _, h⟩ := returned_interp @meeting_meets hempty exampleCall_calls
    (p := fun result => result.accepted && !result.replayed) (by decide +kernel)
  obtain ⟨result, hresult, h⟩ := returned_interp @meeting_meets h exampleCall_calls
    (p := fun result => result.accepted && result.replayed) (by decide +kernel)
  obtain ⟨haccepted, hreplayed⟩ := Bool.and_eq_true_iff.mp hresult
  have htold := (@accepted_means_acknowledged true referenceRuntime _ _ _ h .refl).1 result
    (List.mem_cons_self ..) haccepted
  exact ⟨_, result, haccepted, hreplayed, ⟨_, h, List.mem_cons_self ..⟩, htold⟩

def unheard (r : OrderRecord) : Bool := r.state = .unknown && r.venueOrderId = none

/-- The submission went unanswered and said so; asked again, the service says
the same order was accepted. -/
theorem unanswered_replay_accepted :
    ∃ c, Reachable (@exec true referenceRuntime) (@Calls true referenceRuntime) ⟨empty, [], []⟩ c ∧
      ∃ first again, Returned c.2 first ∧ Returned c.2 again ∧
        (first.accepted = false ∧ first.replayed = false ∧ first.record.any unheard) ∧
        again.accepted ∧ again.replayed ∧ again.record.any unheard := by
  have henv := @exec_grants referenceRuntime (.error (.exchange "timeout"))
  have hempty : Reachable (@exec true referenceRuntime) (@Calls true referenceRuntime) ⟨empty, [], []⟩
      (⟨empty, [], []⟩, []) := .refl
  obtain ⟨first, hfirst, h⟩ := returned_interp @henv hempty exampleCall_calls
    (p := fun result => !result.accepted && (!result.replayed && result.record.any unheard)) (by decide +kernel)
  obtain ⟨again, hagain, h⟩ := returned_interp @henv h exampleCall_calls
    (p := fun result => result.accepted && (result.replayed && result.record.any unheard)) (by decide +kernel)
  refine ⟨_, h, first, again, List.mem_cons_of_mem _ (List.mem_cons_self ..), List.mem_cons_self .., ?_, ?_⟩
  · simpa using hfirst
  · simpa using hagain

end Aetheris.Acceptance
