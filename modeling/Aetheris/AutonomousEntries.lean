import Aetheris.Autonomous
import Aetheris.PaperFiling

namespace Aetheris.AutonomousEntries

open Lib Coroutine Mutation IndexedLog Money Clock Enums RiskEngine OrderIdentity PaperRecords PaperEngine PaperRefinement
  PaperRuns PaperAccounts PaperViews PaperIndex PaperSnapshot PaperFiling PaperService PaperTradingService PaperWorld Autonomous

/-- The process with its loop, and under which ids and on whose behalf positions were opened. -/
structure Floor where
  base : World
  fields : Fields := {}
  opened : List (OrderOrigin × String) := []

namespace Floor

def state (d : Floor) : PaperState := d.base.repository.state

end Floor

section Semantics

variable [Runtime] (config : PaperEngineConfig)

def entered (origin : OrderOrigin) (r : Repository) :
    {β : Type} → PaperService.Effect β → List (OrderOrigin × String)
  | _, .call op => (openedUnder config r op).toList.map fun id => (origin, id)
  | _, _ => []

def exec : Semantics Autonomous.Effect ServiceError Floor
  | _, .paper origin f, d, r, d' =>
      PaperWorld.exec config f d.base r d'.base ∧ d'.fields = d.fields ∧
        d'.opened = d.opened ++ entered config origin d.base.repository f
  | _, .candles _ _, d, _, d' => d' = d
  | _, .fields f, d, r, d' => r = .ok (f d.fields).1 ∧ d' = { d with fields := (f d.fields).2 }

omit [Runtime] in
/-- Where the loop proposes under an id under which it has opened a position, the
order is still in the log. -/
def kept : {β : Type} → Autonomous.Effect β → Floor → Bool
  | _, .paper .autonomous (.call (.replay id _ _)), d => decide ((.autonomous, id) ∈ d.opened → id ∈ loggedIds d.state)
  | _, _, _ => true

def keptExec : Semantics Autonomous.Effect ServiceError Floor := fun f d r d' => kept f d = true ∧ exec config f d r d'

end Semantics

/-- A call of the service other than a reset, or an iteration of the loop. -/
inductive Runs [Runtime] (loop : AutonomousLoop) : LoopM Unit → Prop
  | iterates : Runs loop (do let _ ← loop.runOnce)
  | serves (call : ServiceCall) (hkeeps : ∀ startingBalance, call ≠ .reset startingBalance) :
      Runs loop (asked .manual (serve loop.paper call))

/-- Where a call stands: outside the lock, in it, or in it with an id that is not
known and that the loop, if it is the caller, has opened nothing under. -/
inductive Turn
  | waiting
  | writing
  | ruling (origin : OrderOrigin) (id : String)

def Turn.Holds : Turn → Floor → Prop
  | waiting, _ => True
  | writing, d => d.base.locked = true
  | ruling origin id, d => d.base.locked = true ∧ id ∉ d.state.ordersByClientId.keys ∧
      (Named id → origin = .autonomous → (.autonomous, id) ∉ d.opened)

/-- Under an id of its own the loop has opened at most one position, and the
engine knows the id while the log has its order. -/
structure Sound (d : Floor) : Prop where
  keyed : Keyed (ledger d.base.repository)
  tracked : ∀ id, Named id → Tracked id d.state
  once : ∀ id, Named id → d.opened.count (.autonomous, id) ≤ 1

def protocol : Protocol Floor Turn where
  inv := Sound
  holds := Turn.Holds
  apart g h := g = .waiting ∨ h = .waiting
  apart_symm := Or.symm

section Moves

variable {d d' : Floor} {g h : Turn}

theorem holds_of_eq (hg : g.Holds d) (hshelf : shelf d'.base.repository = shelf d.base.repository)
    (hlocked : d'.base.locked = d.base.locked) (hopened : d'.opened = d.opened) : g.Holds d' := by
  have hindex : d'.state.ordersByClientId = d.state.ordersByClientId := congrArg Prod.snd hshelf
  cases g with
  | waiting => trivial
  | writing => exact hlocked.trans hg
  | ruling origin id =>
      obtain ⟨hlock, hunknown, hunopened⟩ := hg
      exact ⟨hlocked.trans hlock, hindex ▸ hunknown, hopened ▸ hunopened⟩

theorem sound_of_eq (hi : Sound d) (hrepository : d'.base.repository = d.base.repository)
    (hopened : d'.opened = d.opened) : Sound d' := by
  refine ⟨?_, ?_, ?_⟩
  · rw [hrepository]
    exact hi.keyed
  · rw [Floor.state, hrepository]
    exact hi.tracked
  · rw [hopened]
    exact hi.once

/-- An await that leaves the log, its index and the lock alone. -/
theorem moves_still (hi : Sound d) (hg : g.Holds d) (hkeyed : Keyed (ledger d'.base.repository))
    (hshelf : shelf d'.base.repository = shelf d.base.repository) (hlocked : d'.base.locked = d.base.locked)
    (hopened : d'.opened = d.opened) : protocol.Moves g d g d' where
  inv := ⟨hkeyed, fun id hid => tracked_of_shelf (hi.tracked id hid) hshelf, by rw [hopened]; exact hi.once⟩
  holds := holds_of_eq hg hshelf hlocked hopened
  frame := fun _ _ hh => holds_of_eq hh hshelf hlocked hopened
  apart := fun _ ha _ => ha

theorem locked_of_holds (hg : g.Holds d) (hturn : g ≠ .waiting) : d.base.locked = true := by
  cases g with
  | waiting => exact absurd rfl hturn
  | writing => exact hg
  | ruling => exact hg.1

theorem waiting_of_apart (hturn : g ≠ .waiting) (ha : protocol.apart g h) : h = .waiting := ha.resolve_left hturn

/-- Whoever writes keeps the others out. -/
theorem moves_write (hturn : g ≠ .waiting) {g' : Turn} (hi : Sound d') (hg : g'.Holds d') :
    protocol.Moves g d g' d' where
  inv := hi
  holds := hg
  frame := by
    intro h ha _
    rw [waiting_of_apart hturn ha]
    trivial
  apart := fun _ ha _ => .inr (waiting_of_apart hturn ha)

theorem not_locked (hfree : d.base.locked = false) (hg : g.Holds d) : g = .waiting := by
  by_contra hturn
  exact Bool.noConfusion (hfree.symm.trans (locked_of_holds hg hturn))

/-- Where the lock is free, it is taken. -/
theorem moves_acquire (hi : Sound d) (hfree : d.base.locked = false) (hbase : d'.base = d.base.hold true)
    (hopened : d'.opened = d.opened) : protocol.Moves .waiting d .writing d' where
  inv := sound_of_eq hi (by rw [hbase]; rfl) hopened
  holds := by
    change d'.base.locked = true
    rw [hbase]
    rfl
  frame := by
    intro h _ hh
    rw [not_locked hfree hh]
    trivial
  apart := fun _ _ hh => .inr (not_locked hfree hh)

end Moves

section Calls

variable [Runtime] {config : PaperEngineConfig} {d d' : Floor} {g : Turn} {origin : OrderOrigin} {α β : Type}

/-- A call that writes, under the lock: what it opens a position under was not
known, and the loop had opened nothing under it. -/
theorem moves_call {op : Operation} (hturn : g ≠ .waiting) (hi : Sound d) (hg : g.Holds d)
    (hrefuses : ∀ id, Named id → Refuses id op → id ∉ loggedIds d.state)
    (hopens : ∀ id, Named id → origin = .autonomous → id ∈ openedUnder config d.base.repository op →
      (.autonomous, id) ∉ d.opened)
    (hbase : d'.base = d.base.keep (after config d.base.repository op))
    (hopened : d'.opened = d.opened ++ entered config origin d.base.repository (.call op)) :
    protocol.Moves g d .writing d' := by
  have hlocked : d.base.locked = true := locked_of_holds hg hturn
  refine moves_write hturn ⟨?_, fun id hid => ?_, fun id hid => ?_⟩ (by rw [Turn.Holds, hbase]; exact hlocked)
  · rw [hbase]
    exact keyed_after hi.keyed
  · have htracked := tracked_after config hid (hi.tracked id hid) (hrefuses id hid)
    rw [Floor.state, hbase]
    exact htracked
  · rw [hopened, List.count_append]
    change _ + List.count _ ((openedUnder config d.base.repository op).toList.map _) ≤ 1
    cases hunder : openedUnder config d.base.repository op with
    | none => exact hi.once id hid
    | some other =>
        by_cases hsame : (origin, other) = (.autonomous, id)
        · obtain ⟨horigin, rfl⟩ := Prod.mk.inj hsame
          rw [List.count_eq_zero_of_not_mem (hopens _ hid horigin hunder), Nat.zero_add]
          exact List.count_le_length
        · have hcount : List.count (OrderOrigin.autonomous, id) [(origin, other)] = 0 := by
            rw [List.count_singleton, beq_false_of_ne hsame]
            rfl
          change _ + List.count _ [(origin, other)] ≤ 1
          rw [hcount]
          exact hi.once id hid

/-- A part of a call of the service, on behalf of someone. -/
abbrev Keeps (config : PaperEngineConfig) (origin : OrderOrigin) (c : ServiceM α) (g : Turn)
    (post : Except ServiceError α → Turn → Prop) : Prop :=
  protocol.Safe (fun f => keptExec config (.paper origin f)) c g post

theorem exec_calm {f : PaperService.Effect β} (hf : f.Calm) {w w' : World} {r : Except ServiceError β}
    (hx : PaperWorld.exec config f w r w') : w'.repository = w.repository ∧ w'.locked = w.locked := by
  cases f with
  | call | acquire | release | reset => exact hf.elim
  | utcnow =>
      obtain ⟨_, _, _, rfl⟩ := hx
      exact ⟨rfl, rfl⟩
  | getTicker | getSymbol | volatility | reconciliationPending | save =>
      obtain rfl := hx
      exact ⟨rfl, rfl⟩
  | openSymbols | emergency | lastEntryAt | noteEntry =>
      obtain ⟨_, rfl⟩ := hx
      exact ⟨rfl, rfl⟩

theorem entered_idle {f : PaperService.Effect β} (hf : f.operation? = none) (r : Repository) :
    entered config origin r f = [] := by
  cases f with
  | call => cases hf
  | _ => rfl

omit [Runtime] in
theorem operation?_of_calm {f : PaperService.Effect β} (hf : f.Calm) : f.operation? = none := by
  cases f with
  | call => exact hf.elim
  | _ => rfl

theorem keeps_calm {c : ServiceM α} (h : c.Performs PaperService.Effect.Calm) :
    Keeps config origin c g fun _ g' => g' = g := by
  induction c with
  | ret a => rfl
  | raise e => rfl
  | await f k ih =>
      intro d r d' hi hg hx
      obtain ⟨_, hbase, _, hopened⟩ := hx
      obtain ⟨hrepository, hlocked⟩ := exec_calm h.1 hbase
      rw [entered_idle (operation?_of_calm h.1), List.append_nil] at hopened
      refine ⟨g, moves_still hi hg ?_ ?_ hlocked hopened, ih r (h.2 r)⟩
      · rw [hrepository]
        exact hi.keyed
      · rw [hrepository]

/-- What follows something that leaves its caller where it is. -/
theorem keeps_then {c : ServiceM α} {k : α → ServiceM β} {post : Except ServiceError β → Turn → Prop}
    (hc : c.Performs PaperService.Effect.Calm) (herror : ∀ e, post (.error e) g)
    (hk : ∀ a, Keeps config origin (k a) g post) : Keeps config origin (c >>= k) g post := by
  refine Protocol.Safe.bind ((keeps_calm hc).mono ?_)
  rintro (e | a) g' rfl
  · exact herror e
  · exact hk a

/-- A look at the account, by whomever. -/
theorem keeps_look {op : Operation} (hshelf : ∀ r, shelf (after config r op) = shelf r)
    (hunder : ∀ r, openedUnder config r op = none) : Keeps config origin (perform (.call op)) g fun _ g' => g' = g := by
  refine Protocol.Safe.perform fun d r d' hi hg hx => ?_
  obtain ⟨_, ⟨_, hbase⟩, _, hopened⟩ := hx
  rw [entered, hunder, Option.toList_none, List.map_nil, List.append_nil] at hopened
  refine ⟨g, moves_still hi hg ?_ ?_ ?_ hopened, rfl⟩
  · rw [hbase]
    exact keyed_after hi.keyed
  · rw [hbase]
    exact hshelf _
  · rw [hbase]
    rfl

theorem keeps_snapshot (now : Timestamp) (marks : Marks) :
    Keeps config origin (perform (.call (.snapshot now marks))) g fun _ g' => g' = g :=
  keeps_look (fun r => silent_snapshot undated_shelf r) fun _ => rfl

/-- In the lock, and free to leave it. -/
def Inside (_ : Except ServiceError α) (g : Turn) : Prop := g ≠ .waiting

theorem keeps_write {op : Operation} (hturn : g ≠ .waiting) (hrefuses : ∀ id, ¬ Refuses id op)
    (hunder : ∀ r, openedUnder config r op = none) : Keeps config origin (perform (.call op)) g Inside := by
  refine Protocol.Safe.perform fun d r d' hi hg hx => ?_
  obtain ⟨_, ⟨_, hbase⟩, _, hopened⟩ := hx
  refine ⟨.writing, moves_call hturn hi hg (fun id _ h => absurd h (hrefuses id)) ?_ hbase hopened, nofun⟩
  intro id _ _ h
  rw [hunder] at h
  cases h

/-- The lock is taken, and given back however the body ends. -/
theorem keeps_underLock {body : ServiceM α} (h : Keeps config origin body .writing Inside) :
    Keeps config origin (underLock body) .waiting fun _ g' => g' = .waiting := by
  refine Protocol.Safe.bind (Protocol.Safe.perform fun d r d' hi _ hx => ?_)
  obtain ⟨_, hbase, _, hopened⟩ := hx
  rw [entered_idle rfl, List.append_nil] at hopened
  rcases hbase with ⟨hfree, rfl, hbase⟩ | ⟨rfl, hbase⟩
  · refine ⟨.writing, moves_acquire hi hfree hbase hopened, ?_⟩
    refine Protocol.Safe.bind (Protocol.Safe.caught (h.mono ?_))
    intro outcome g' hturn
    refine Protocol.Safe.bind (Protocol.Safe.perform fun d r d' hi hg hx => ?_)
    obtain ⟨_, ⟨rfl, hbase⟩, _, hopened⟩ := hx
    rw [entered_idle rfl, List.append_nil] at hopened
    refine ⟨.waiting, moves_write hturn (sound_of_eq hi (by rw [hbase]; rfl) hopened) trivial, ?_⟩
    cases outcome with
    | ok a => rfl
    | error e => rfl
  · refine ⟨.waiting, moves_still hi trivial ?_ ?_ ?_ hopened, rfl⟩
    · rw [hbase]
      exact hi.keyed
    · rw [hbase]
    · rw [hbase]

end Calls

section Submissions

variable [Runtime] {config : PaperEngineConfig} {origin : OrderOrigin} {request asked : SubmitOrderRequest} {α : Type}

/-- Where a submission stands once it is known to be no replay. -/
def standing (origin : OrderOrigin) (request : SubmitOrderRequest) : Turn :=
  match request.clientOrderId with
  | none => .writing
  | some id => .ruling origin id

omit [Runtime] in
theorem standing_inside : standing origin request ≠ .waiting := by
  unfold standing
  cases request.clientOrderId <;> exact nofun

omit [Runtime] in
theorem unknown_of_standing {d : Floor} (hg : (standing origin request).Holds d) {id : String}
    (hid : request.clientOrderId = some id) :
    id ∉ d.state.ordersByClientId.keys ∧ (Named id → origin = .autonomous → (.autonomous, id) ∉ d.opened) := by
  rw [standing, hid] at hg
  exact hg.2

theorem keeps_submission (hsame : asked.clientOrderId = request.clientOrderId) (now : Timestamp) (mark : MarkPrice)
    (filters : Option SymbolFilters) (leverage : Leverage.LeverageDecision) (paperEnabled : Bool) (marks : Marks)
    (detail : Option String) (checks : List String) (riskMax : Option Decimal) :
    Keeps config origin (perform (.call (.submitOrder asked now mark filters leverage paperEnabled marks detail checks
      riskMax))) (standing origin request) Inside := by
  refine Protocol.Safe.perform fun d r d' hi hg hx => ?_
  obtain ⟨_, ⟨_, hbase⟩, _, hopened⟩ := hx
  refine ⟨.writing, moves_call standing_inside hi hg ?_ ?_ hbase hopened, nofun⟩
  · rintro id _ ⟨⟩
  · intro id hid horigin hunder
    obtain ⟨_, _, _, _, _, _, _, _, _, _, _, hop, hclient⟩ := openedUnder_new hi.keyed hid hunder
    injection hop with hrequest
    exact (unknown_of_standing hg (by rw [← hsame, hrequest, hclient])).2 hid horigin

theorem keeps_refusal (now : Timestamp) (code : RiskRejectionCode) (detail : String) (marks : Marks)
    (from_ : Provenance) : Keeps config origin (perform (.call (.refuse request now code detail marks from_)))
      (standing origin request) Inside := by
  refine Protocol.Safe.perform fun d r d' hi hg hx => ?_
  obtain ⟨_, ⟨_, hbase⟩, _, hopened⟩ := hx
  refine ⟨.writing, moves_call standing_inside hi hg ?_ ?_ hbase hopened, nofun⟩
  · intro id hid hrefuses hlogged
    exact (unknown_of_standing hg hrefuses).1 ((hi.tracked id hid).indexed hlogged)
  · rintro id _ _ ⟨⟩

omit [Runtime] in
theorem replay_none (config : PaperEngineConfig) {r : Repository} {id : String} (now : Timestamp) (marks : Marks)
    (h : ((PaperEngine.replay config id now marks).run r).1 = .ok none) : r.state.ordersByClientId.get? id = none := by
  rw [PaperEngine.replay, run_bind_ok PaperOutcomes.load_run] at h
  cases hknown : r.state.ordersByClientId.get? id with
  | none => rfl
  | some existing =>
      rw [hknown] at h
      obtain ⟨_, t, _, hreplayed⟩ := of_run_bind h
      rw [map_eq_pure_bind] at hreplayed
      obtain ⟨result, _, _, hresult⟩ := of_run_bind hreplayed
      cases hresult

/-- Where nothing is known under the id, the caller may rule on it. -/
theorem keeps_replayKnown (now : Timestamp) (marks : Marks) :
    Keeps config origin (submitLocked.replayKnown request now marks) .writing fun r g' =>
      g' ≠ .waiting ∧ (r = .ok none → g' = standing origin request) := by
  unfold submitLocked.replayKnown standing
  cases request.clientOrderId with
  | none => exact ⟨nofun, fun _ => rfl⟩
  | some id =>
      refine Protocol.Safe.perform fun d r d' hi hg hx => ?_
      obtain ⟨hkept, ⟨hr, hbase⟩, _, hopened⟩ := hx
      rw [entered, show openedUnder config d.base.repository (.replay id now marks) = none from rfl, Option.toList_none,
        List.map_nil, List.append_nil] at hopened
      have hshelf : shelf d'.base.repository = shelf d.base.repository := by
        rw [hbase]
        exact silent_replay undated_shelf id d.base.repository
      have hlocked : d'.base.locked = d.base.locked := by
        rw [hbase]
        rfl
      have hstill : protocol.Moves .writing d .writing d' := by
        refine moves_still hi hg ?_ hshelf hlocked hopened
        rw [hbase]
        exact keyed_after hi.keyed
      by_cases hnone : r = .ok none
      · have hunknown : id ∉ d.state.ordersByClientId.keys := by
          rw [← Dict.get?_eq_none]
          exact replay_none config now marks (answered_ok (hnone.symm.trans hr))
        have hruling : (Turn.ruling origin id).Holds d' := by
          refine ⟨hstill.holds, ?_, ?_⟩
          · rw [show d'.state.ordersByClientId = d.state.ordersByClientId from congrArg Prod.snd hshelf]
            exact hunknown
          · rintro hid rfl hmem
            rw [hopened] at hmem
            exact hunknown ((hi.tracked id hid).indexed (of_decide_eq_true hkept hmem))
        have hinside : Turn.writing ≠ .waiting := nofun
        exact ⟨.ruling origin id, moves_write hinside hstill.inv hruling, nofun, fun _ => rfl⟩
      · exact ⟨.writing, hstill, nofun, fun h => absurd h hnone⟩

end Submissions

section Services

variable [Runtime] {config : PaperEngineConfig} {origin : OrderOrigin} {service : PaperTradingService}
  {request : SubmitOrderRequest} {requestedLeverage : Decimal} {by_ : String} {g : Turn} {α β : Type}

omit [Runtime] in
theorem calm_self : PaperService.Calm PaperService.Effect.Calm := fun _ h => h

theorem keeps_persist (hturn : g ≠ .waiting) : Keeps config origin service.persist g Inside :=
  (keeps_calm (performs_persist calm_self)).mono fun _ _ hg => hg ▸ hturn

/-- A body of the lock that ends with keeping the account. -/
theorem keeps_persisted {c : ServiceM α} (h : Keeps config origin c .writing Inside) :
    Keeps config origin (do
      let outcome ← c
      service.persist
      return outcome) .writing Inside := by
  refine Protocol.Safe.bind (h.mono ?_)
  rintro (e | outcome) g' hturn
  · exact hturn
  · refine Protocol.Safe.bind ((keeps_persist hturn).mono ?_)
    rintro (e | _) g'' hturn'
    · exact hturn'
    · exact hturn'

theorem keeps_submitRuled (symbol : String) (now : Timestamp) (mark : MarkPrice) (listed : Listing) (marks : Marks)
    (verdict : RiskVerdict) : Keeps config origin (service.submitRuled request symbol now mark listed marks verdict)
      (standing origin request) Inside := by
  unfold submitRuled
  split
  · have hasked : ({ request with margin := verdict.approvedMargin, quantity := none } :
        SubmitOrderRequest).clientOrderId = request.clientOrderId := rfl
    refine Protocol.Safe.bind ((keeps_submission hasked _ _ _ _ _ _ _ _ _).mono ?_)
    rintro (e | outcome) g' hturn
    · exact hturn
    · dsimp only
      split
      · exact keeps_then (performs_perform trivial) (fun _ => hturn) fun _ => hturn
      · exact hturn
  · split
    · exact keeps_refusal _ _ _ _ _
    · exact standing_inside

theorem keeps_submitListed (symbol : String) (now : Timestamp) (marks : Marks) (listed : Listing) :
    Keeps config origin (service.submitListed request requestedLeverage by_ symbol now marks listed)
      (standing origin request) Inside := by
  have hturn : standing origin request ≠ .waiting := standing_inside
  refine keeps_then (performs_markIn calm_self _ _) (fun _ => hturn) fun mark => ?_
  refine keeps_then (performs_perform trivial) (fun _ => hturn) fun volatility => ?_
  refine Protocol.Safe.bind ((keeps_snapshot now marks).mono ?_)
  rintro (e | account) g' rfl
  · exact hturn
  refine keeps_then (performs_reconciliationPending calm_self) (fun _ => hturn) fun pending => ?_
  refine keeps_then (performs_accountView calm_self _ _ _) (fun _ => hturn) fun view => ?_
  split
  · exact hturn
  · exact keeps_submitRuled _ _ _ _ _ _

theorem keeps_submitLocked : Keeps config origin (service.submitLocked request requestedLeverage by_) .writing Inside := by
  refine keeps_then (performs_perform trivial) (fun _ => nofun) fun now => ?_
  refine keeps_then (performs_openMarks calm_self) (fun _ => nofun) fun marks => ?_
  refine Protocol.Safe.bind ((keeps_replayKnown now marks).mono ?_)
  rintro (e | replayed) g' ⟨hturn, hnew⟩
  · exact hturn
  cases replayed with
  | some result => exact hturn
  | none =>
      obtain rfl := hnew rfl
      refine keeps_then (performs_metadata calm_self _) (fun _ => hturn) fun found => ?_
      cases found with
      | error problem => exact keeps_submission rfl _ _ _ _ _ _ _ _ _
      | ok listed => exact keeps_submitListed _ _ _ _

theorem keeps_submitOrder : Keeps config origin (service.submitOrder request requestedLeverage by_) .waiting
    fun _ g' => g' = .waiting := keeps_underLock (keeps_persisted keeps_submitLocked)

theorem keeps_tick : Keeps config origin service.tick .waiting fun _ g' => g' = .waiting := by
  refine keeps_underLock ?_
  refine keeps_then (performs_perform trivial) (fun _ => nofun) fun now => ?_
  refine keeps_then (performs_openMarks calm_self) (fun _ => nofun) fun marks => ?_
  exact keeps_persisted (keeps_write nofun (fun _ h => h) fun _ => rfl)

theorem keeps_closePosition (symbol : String) (reason : PaperExitReason) :
    Keeps config origin (service.closePosition symbol reason) .waiting fun _ g' => g' = .waiting := by
  refine keeps_underLock ?_
  refine keeps_then (performs_openMarks calm_self) (fun _ => nofun) fun marks => ?_
  refine keeps_then (performs_markIn calm_self _ _) (fun _ => nofun) fun mark => ?_
  refine keeps_then (performs_perform trivial) (fun _ => nofun) fun now => ?_
  exact keeps_persisted (keeps_write nofun (fun _ h => h) fun _ => rfl)

theorem keeps_setEmergencyStop (engaged : Bool) (reason : String) :
    Keeps config origin (service.setEmergencyStop engaged reason) .waiting fun _ g' => g' = .waiting := by
  refine keeps_underLock ?_
  refine keeps_then (performs_perform trivial) (fun _ => nofun) fun now => ?_
  exact keeps_persisted (keeps_write nofun (fun _ h => h) fun _ => rfl)

theorem keeps_getAccount : Keeps config origin service.getAccount .waiting fun _ g' => g' = .waiting := by
  refine keeps_then (performs_perform trivial) (fun _ => rfl) fun now => ?_
  refine keeps_then (performs_openMarks calm_self) (fun _ => rfl) fun marks => ?_
  exact keeps_snapshot now marks

theorem keeps_positionIntelligence (symbol : String) :
    Keeps config origin (service.positionIntelligence symbol) .waiting fun _ g' => g' = .waiting := by
  refine Protocol.Safe.bind (keeps_getAccount.mono ?_)
  rintro (e | account) g' rfl
  · rfl
  · rfl

theorem keeps_serve (call : ServiceCall) (hkeeps : ∀ startingBalance, call ≠ .reset startingBalance) :
    Keeps config origin (serve service call) .waiting fun _ g' => g' = .waiting := by
  have hdone {γ : Type} {c : ServiceM γ} (h : Keeps config origin c .waiting fun _ g' => g' = .waiting) :
      Keeps config origin (do let _ ← c) .waiting fun _ g' => g' = .waiting := by
    refine Protocol.Safe.bind (h.mono ?_)
    rintro (e | a) g' rfl
    · rfl
    · rfl
  cases call with
  | getAccount => exact hdone keeps_getAccount
  | positionIntelligence symbol => exact hdone (keeps_positionIntelligence symbol)
  | tick => exact hdone keeps_tick
  | submitOrder request requestedLeverage origin => exact hdone keeps_submitOrder
  | closePosition symbol reason => exact hdone (keeps_closePosition symbol reason)
  | reset startingBalance => exact absurd rfl (hkeeps startingBalance)
  | setEmergencyStop engaged reason => exact hdone (keeps_setEmergencyStop engaged reason)

end Services

section Iterations

open AutonomousLoop

variable [Runtime] {config : PaperEngineConfig} {loop : AutonomousLoop} {α β : Type}

/-- A part of an iteration takes the lock in the service's calls alone. -/
abbrev Idles (config : PaperEngineConfig) (c : LoopM α) : Prop :=
  protocol.Safe (keptExec config) c .waiting fun _ g' => g' = .waiting

theorem idles_bind {c : LoopM α} {k : α → LoopM β} (hc : Idles config c) (hk : ∀ a, Idles config (k a)) :
    Idles config (c >>= k) := by
  refine Protocol.Safe.bind (hc.mono ?_)
  rintro (e | a) g' rfl
  · rfl
  · exact hk a

theorem idles_caught {c : LoopM α} (hc : Idles config c) : Idles config c.caught :=
  Protocol.Safe.caught hc

theorem idles_asked {origin : OrderOrigin} {c : ServiceM α}
    (h : Keeps config origin c .waiting fun _ g' => g' = .waiting) : Idles config (asked origin c) :=
  Protocol.Safe.expand h

theorem idles_fields (f : Fields → α × Fields) : Idles config (perform (.fields f)) := by
  refine Protocol.Safe.perform fun d r d' hi hg hx => ?_
  obtain ⟨_, _, rfl⟩ := hx
  exact ⟨.waiting, moves_still hi hg hi.keyed rfl rfl rfl, rfl⟩

theorem idles_candles (symbol : String) (now : Timestamp) : Idles config (perform (.candles symbol now)) := by
  refine Protocol.Safe.perform fun d r d' hi hg hx => ?_
  obtain ⟨_, rfl⟩ := hx
  exact ⟨.waiting, moves_still hi hg hi.keyed rfl rfl rfl, rfl⟩

theorem idles_record (finding : Finding) : Idles config (loop.record finding) := idles_fields _

/-- A decision, and what is made of it. -/
theorem idles_recorded {finding : Finding} {f : AutonomousDecision → β} :
    Idles config (do return f (← loop.record finding)) := idles_bind (idles_record finding) fun _ => rfl

theorem idles_utcnow : Idles config (asked .autonomous (perform .utcnow)) :=
  idles_asked (keeps_calm (performs_perform trivial))

theorem idles_proposeEntry (symbol : String) (evaluation : Evaluation) (account : PaperAccount) (now : Timestamp) :
    Idles config (loop.proposeEntry symbol evaluation account now) := by
  refine idles_bind (idles_asked keeps_submitOrder) fun outcome => ?_
  dsimp only
  split
  · exact idles_bind (idles_fields _) fun _ => idles_recorded
  · exact idles_bind (idles_fields _) fun _ => idles_recorded

theorem idles_manageOpen (symbol : String) (side : PositionSide) (evaluation : Evaluation) (now : Timestamp) :
    Idles config (loop.manageOpen symbol side evaluation now) := by
  unfold manageOpen
  dsimp only
  split
  · refine idles_bind (idles_asked (keeps_closePosition symbol .signalFlip)) fun outcome => ?_
    split
    · exact idles_bind (idles_fields _) fun _ => idles_recorded
    · exact idles_recorded
  · exact idles_recorded

theorem idles_evaluateSymbol (symbol : String) (account : PaperAccount) (now : Timestamp) :
    Idles config (loop.evaluateSymbol symbol account now) := by
  refine idles_bind (idles_candles symbol now) fun found => ?_
  cases found with
  | error problem => exact idles_recorded
  | ok evaluation =>
      dsimp only
      split
      · exact idles_bind (idles_manageOpen _ _ _ _) fun _ => rfl
      · split
        · exact idles_recorded
        · split
          · exact idles_recorded
          · exact idles_bind (idles_proposeEntry _ _ _ _) fun _ => rfl

theorem idles_attempt (symbol : String) (account : PaperAccount) (now : Timestamp) :
    Idles config (loop.attempt symbol account now) := by
  refine idles_bind (idles_caught (idles_evaluateSymbol symbol account now)) fun outcome => ?_
  rcases outcome with e | found
  · cases e with
    | cancelled => exact rfl
    | _ => exact idles_recorded
  · exact rfl

theorem idles_evaluateAll (started : Timestamp) (symbols : List String) (account : PaperAccount) :
    Idles config (loop.evaluateAll started symbols account) := by
  induction symbols generalizing account with
  | nil => exact rfl
  | cons symbol rest ih =>
      refine idles_bind (idles_attempt symbol account started) fun ⟨decisions, failed⟩ => ?_
      cases failed with
      | true =>
          refine idles_bind (idles_fields _) fun _ => idles_bind (idles_asked keeps_getAccount) fun account => ?_
          exact idles_bind (ih account) fun _ => rfl
      | false =>
          refine idles_bind (idles_fields _) fun _ => idles_bind (idles_asked keeps_getAccount) fun account => ?_
          exact idles_bind (ih account) fun _ => rfl

theorem idles_recordClosed (started : Timestamp) (closed : List PaperTrade) :
    Idles config (loop.recordClosed started closed) := by
  induction closed with
  | nil => exact rfl
  | cons trade rest ih =>
      refine idles_bind (idles_fields _) fun _ => ?_
      exact idles_bind (idles_record _) fun _ => idles_bind ih fun _ => rfl

theorem idles_finishIteration (started : Timestamp) (failures evaluated : Nat) :
    Idles config (finishIteration started failures evaluated) :=
  idles_bind idles_utcnow fun _ => idles_fields _

theorem idles_runOnce : Idles config loop.runOnce := by
  refine idles_bind idles_utcnow fun started => ?_
  refine idles_bind (idles_fields _) fun symbols => ?_
  cases symbols with
  | nil =>
      refine idles_bind (idles_record _) fun _ => ?_
      exact idles_bind (idles_finishIteration _ _ _) fun _ => rfl
  | cons symbol rest =>
      refine idles_bind (idles_asked keeps_tick) fun ticked => ?_
      refine idles_bind (idles_recordClosed _ _) fun managed => ?_
      refine idles_bind (idles_evaluateAll _ _ _) fun evaluated => ?_
      exact idles_bind (idles_finishIteration _ _ _) fun _ => rfl

theorem runs_idle {c : LoopM Unit} (h : Runs loop c) : Idles config c := by
  cases h with
  | iterates => exact idles_bind idles_runOnce fun _ => rfl
  | serves call hkeeps => exact idles_asked (keeps_serve call hkeeps)

end Iterations

section Bars

variable [Runtime]

omit [Runtime] in
theorem ne_of_head {s t : String} (h : s.toList.head? ≠ t.toList.head?) : s ≠ t :=
  fun hst => h (congrArg (fun u => u.toList.head?) hst)

/-- The loop's ids are not among those that the engine counts up. -/
theorem named_buildClientOrderId (loop : AutonomousLoop) (symbol : String) (barClose : Timestamp) (side : OrderSide) :
    Named (loop.buildClientOrderId symbol barClose side) := by
  have hauto : (toString "auto-").toList.head? = some 'a' := by decide
  have hpaper : (toString "paper-").toList.head? = some 'p' := by decide
  have hclose : (toString "paper-close-").toList.head? = some 'p' := by decide
  have hhead : (loop.buildClientOrderId symbol barClose side).toList.head? = some 'a' := by
    simp [AutonomousLoop.buildClientOrderId, hauto]
  refine ⟨ne_of_head ?_, fun n => ne_of_head ?_, fun n => ne_of_head ?_⟩
  · rw [hhead]
    decide
  · simp [hhead, hpaper]
  · simp [hhead, hclose]

/-- Where the loop, as it proposes again under an id that it has opened a position
under, finds the order in the log, it opens at most one position for a bar. -/
theorem one_entry_per_bar (config : PaperEngineConfig) (loop : AutonomousLoop) (startingBalance : Decimal)
    (now : Timestamp) (durability : Durability) (d : Floor) (pool : List (LoopM Unit))
    (h : Reachable (keptExec config) (Runs loop) { base := booted startingBalance now durability } (d, pool))
    (symbol : String) (barClose : Timestamp) (side : OrderSide) :
    d.opened.count (.autonomous, loop.buildClientOrderId symbol barClose side) ≤ 1 := by
  have hstart : Sound { base := booted startingBalance now durability } :=
    ⟨keyed_opening, fun _ _ => tracks_nil, fun _ _ => Nat.zero_le _⟩
  have hsound : Sound d := by
    refine protocol.reachable_inv (fun c hc => ?_) hstart h
    exact ⟨.waiting, fun _ => trivial, fun _ => .inl rfl, (runs_idle hc).mono fun _ _ _ => trivial⟩
  exact hsound.once _ (named_buildClientOrderId loop symbol barClose side)

end Bars

section Examples

/-- A venue, and what its candles show. -/
def answers [Runtime] (config : PaperEngineConfig) (venue : Venue) (seen : Evaluation) :
    {β : Type} → Autonomous.Effect β → Floor → Except ServiceError β × Floor
  | _, .paper origin f, d =>
      ((venue.answers config f d.base).1,
        { base := (venue.answers config f d.base).2
          fields := d.fields
          opened := d.opened ++ entered config origin d.base.repository f })
  | _, .candles _ _, d => (.ok (.ok seen), d)
  | _, .fields f, d => (.ok (f d.fields).1, { d with fields := (f d.fields).2 })

theorem exec_answers [Runtime] {config : PaperEngineConfig} (venue : Venue) (seen : Evaluation) {β : Type}
    (f : Autonomous.Effect β) (d : Floor) : exec config f d (answers config venue seen f d).1
      (answers config venue seen f d).2 := by
  cases f with
  | paper origin f => exact ⟨PaperWorld.exec_answers venue f d.base, rfl, rfl⟩
  | candles => rfl
  | fields f => exact ⟨rfl, rfl⟩

def exampleLoop : AutonomousLoop where
  paper := exampleService
  symbols := ["BTCUSDT"]
  timeframe := .m15
  maxSymbols := 5
  positionSizePercent := 10
  requestedLeverage := 1
  stopLossPercent := some 2
  takeProfitPercent := some 4
  trailingStopPercent := none
  closeOnSignalFlip := true
  maxConsecutiveFailures := 10
  maxDecisionLog := 500
  millis t := t / 1000
  describe _ := "an exception"

def rising : Evaluation where
  barClose := 0
  result := { strategy := "trend_momentum", version := "1", timeframe := .m15, status := .ready, bias := some .longBias }

def shortLog : PaperEngineConfig :=
  { exampleConfig with dailyProfitTarget := 100, dailyLossLimit := -100, maxOrderLog := 10 }

def started : Floor := { base := booted 1000 0 .inMemory }

/-- A run of the process at one moment of the market, as far as it comes. -/
def carried (bid : Decimal) (now : Timestamp) (c : LoopM Unit) (d : Floor) : LoopM Unit × Floor :=
  c.advance (@answers referenceRuntime shortLog (quoted now bid) rising) 200 d

def iteration : LoopM Unit := do
  let _ ← @AutonomousLoop.runOnce exampleLoop referenceRuntime

/-- Nothing of the kind is held, and the refusal is recorded. -/
def vainClose : LoopM Unit := asked .manual (@serve referenceRuntime exampleService (.closePosition "ETHUSDT" .manualClose))

/-- A position is opened at one hundred. -/
def entry : Floor := (carried 99 1000000 iteration started).2

/-- It is stopped out at ninety, and the loop proposes the bar again. -/
def stopped : Floor := (carried 90 120000000 iteration entry).2

theorem carried_kept {bid : Decimal} {now : Timestamp} {c : LoopM Unit} {d : Floor} {pool : List (LoopM Unit)}
    (h : Reachable (@keptExec referenceRuntime shortLog) (@Runs referenceRuntime exampleLoop) started (d, pool))
    (hc : @Runs referenceRuntime exampleLoop c)
    (hpass : c.passes (@answers referenceRuntime shortLog (quoted now bid) rising) kept 200 d = true) :
    ∃ pool, Reachable (@keptExec referenceRuntime shortLog) (@Runs referenceRuntime exampleLoop) started
      ((carried bid now c d).2, pool) :=
  ⟨_, reachable_begin _ _ (fun f d hf => ⟨hf, @exec_answers referenceRuntime _ _ _ _ f d⟩) 200 h hc hpass⟩

theorem one_entry_per_bar_example : stopped.fields.entries = 2 ∧
    stopped.opened.count (.autonomous, @AutonomousLoop.buildClientOrderId exampleLoop referenceRuntime "BTCUSDT" 0 .buy) ≤
      1 := by
  obtain ⟨_, hentry⟩ := carried_kept .refl (@Runs.iterates referenceRuntime _) (by decide +kernel : iteration.passes
    (@answers referenceRuntime shortLog (quoted 1000000 99) rising) kept 200 started = true)
  obtain ⟨_, hstopped⟩ := carried_kept hentry (@Runs.iterates referenceRuntime _) (by decide +kernel : iteration.passes
    (@answers referenceRuntime shortLog (quoted 120000000 90) rising) kept 200 entry = true)
  exact ⟨by decide +kernel, @one_entry_per_bar referenceRuntime _ exampleLoop _ _ _ _ _ hstopped _ _ _⟩

/-- The runs of the process, whatever becomes of the log. -/
def ReachableFloor (d : Floor) : Prop :=
  ∃ pool, Reachable (@exec referenceRuntime shortLog) (@Runs referenceRuntime exampleLoop) started (d, pool)

theorem carried_reachable {d : Floor} (h : ReachableFloor d) (bid : Decimal) (now : Timestamp) {c : LoopM Unit}
    (hc : @Runs referenceRuntime exampleLoop c) : ReachableFloor (carried bid now c d).2 := by
  obtain ⟨pool, h⟩ := h
  exact ⟨_, reachable_begin _ _ (fun f d _ => @exec_answers referenceRuntime _ _ _ _ f d) 200 h hc
    (passes_of_forall 200 c d)⟩

def crowd (d : Floor) : Nat → Floor
  | 0 => d
  | n + 1 => (carried 99 180000000 vainClose (crowd d n)).2

theorem crowd_reachable {d : Floor} (h : ReachableFloor d) (n : Nat) : ReachableFloor (crowd d n) := by
  induction n with
  | zero => exact h
  | succ n ih => exact carried_reachable ih 99 180000000 (@Runs.serves referenceRuntime _ _ nofun)

/-- The ten orders a short log holds are others, and the bar is proposed once more. -/
def reopened : Floor := (carried 99 240000000 iteration (crowd stopped 10)).2

/-- The loop opens a second position for a bar, under the id of the first. -/
theorem bar_entered_twice : ¬ ∀ (config : PaperEngineConfig) (loop : AutonomousLoop) (startingBalance : Decimal)
    (now : Timestamp) (durability : Durability) (d : Floor) (pool : List (LoopM Unit)),
    Reachable (@exec referenceRuntime config) (@Runs referenceRuntime loop)
      { base := booted startingBalance now durability } (d, pool) →
    ∀ (symbol : String) (barClose : Timestamp) (side : OrderSide),
      d.opened.count (.autonomous, @AutonomousLoop.buildClientOrderId loop referenceRuntime symbol barClose side) ≤ 1 := by
  intro hclaim
  have hstarted : ReachableFloor started := ⟨[], .refl⟩
  have hentry : ReachableFloor entry := carried_reachable hstarted _ _ (@Runs.iterates referenceRuntime _)
  have hstopped : ReachableFloor stopped := carried_reachable hentry _ _ (@Runs.iterates referenceRuntime _)
  obtain ⟨pool, hreopened⟩ : ReachableFloor reopened :=
    carried_reachable (crowd_reachable hstopped 10) _ _ (@Runs.iterates referenceRuntime _)
  have hcount := hclaim _ _ _ _ _ _ _ hreopened "BTCUSDT" 0 .buy
  have htwice : reopened.opened.count
      (.autonomous, @AutonomousLoop.buildClientOrderId exampleLoop referenceRuntime "BTCUSDT" 0 .buy) = 2 := by
    decide +kernel
  rw [htwice] at hcount
  omega

end Examples

end Aetheris.AutonomousEntries
