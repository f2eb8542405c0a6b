import Aetheris.AutonomousEntries
import Aetheris.Lib.SoleRun
import Aetheris.PaperDealings

namespace Aetheris.AutonomousCounters

open Lib Coroutine Mutation IndexedLog Money Clock Enums RiskEngine OrderIdentity PaperRecords PaperEngine PaperRuns
  PaperOutcomes PaperViews PaperDealings PaperService PaperTradingService PaperWorld Autonomous AutonomousEntries

/-- The loop's own fields, and what its calls opened and closed. -/
structure Books where
  fields : Fields := {}
  opened : List EntryTerms := []
  closed : List PaperTrade := []

namespace Books

/-- What has been dealt since is the loop's. -/
def since (b : Books) (before after : Repository) : Books :=
  { b with
    opened := b.opened ++ (dealings after).1.drop (dealings before).1.length
    closed := b.closed ++ (dealings after).2.drop (dealings before).2.length }

variable {b : Books} {r t : Repository}

theorem since_idle (h : dealings t = dealings r) : b.since r t = b := by
  rw [since, h, List.drop_length, List.drop_length, List.append_nil, List.append_nil]

theorem since_opened {terms : EntryTerms} (h : dealings t = ((dealings r).1 ++ [terms], (dealings r).2)) :
    b.since r t = { b with opened := b.opened ++ [terms] } := by
  rw [since, h]
  simp

theorem since_closed {trades : List PaperTrade} (h : dealings t = ((dealings r).1, (dealings r).2 ++ trades)) :
    b.since r t = { b with closed := b.closed ++ trades } := by
  rw [since, h]
  simp

end Books

section Semantics

variable [Runtime] (config : PaperEngineConfig)

/-- A submission meets no filled order under its id, and what it opens can be reported. -/
def Enters (r : Repository) (request : SubmitOrderRequest) (decision : Except PaperPricing.Decline PaperPricing.Entry) : Prop :=
  (∀ existing ∈ repeated r request, existing.isFilled = false) ∧
    (repeated r request = none → ∀ entry ∈ decision.toOption, Bookable config entry)

/-- Where the account can be reported, the loop proposes under no id of a filled
order, and keeping the account is not cancelled. -/
def Permitted : {β : Type} → PaperService.Effect β → World → Except ServiceError β → Prop
  | _, .call (.replay id _ _), w, _ => ∀ existing ∈ w.repository.state.ordersByClientId.get? id, existing.isFilled = false
  | _, .call (.submitOrder request now mark filters leverage paperEnabled _ _ _ _), w, _ =>
      Reportable w.repository.state ∧
        Enters config w.repository request (decisionOn config w.repository request now mark filters leverage paperEnabled)
  | _, .call (.tick _ _), w, _ | _, .call (.closePosition _ _ _ _ _), w, _ => Reportable w.repository.state
  | _, .save, _, x => x = .ok ()
  | _, _, _, _ => True

/-- The loop, amid whatever becomes of the account between its awaits. -/
def amid : Semantics Autonomous.Effect ServiceError Books
  | _, .paper _ f, b, x, b' => ∃ w w', Permitted config f w x ∧ PaperWorld.exec config f w x w' ∧
      b' = b.since w.repository w'.repository
  | _, .candles _ _, b, _, b' => b' = b
  | _, .fields f, b, x, b' => x = .ok (f b.fields).1 ∧ b' = { b with fields := (f b.fields).2 }

end Semantics

section Services

variable [Runtime] {config : PaperEngineConfig} {service : PaperTradingService} {b : Books} {α : Type}
  {origin : OrderOrigin}

/-- What a call of the service always leaves in the books. -/
abbrev Leaves (config : PaperEngineConfig) (c : ServiceM α) (b : Books)
    (post : Except ServiceError α → Books → Prop) : Prop := c.Always (fun f => amid config (.paper .autonomous f)) b post

theorem leaves_calm {c : ServiceM α} (h : c.Performs PaperService.Effect.Calm) : Leaves config c b fun _ b' => b' = b := by
  refine always_of_performs (I := fun b' => b' = b) ?_ h rfl
  rintro β f _ x b' hf rfl ⟨w, w', _, hx, rfl⟩
  exact Books.since_idle (by rw [(exec_calm hf hx).1])

theorem leaves_acquire : Leaves config (perform .acquire) b fun _ b' => b' = b := by
  refine Always.perform ?_
  rintro x b' ⟨w, w', _, hx, rfl⟩
  refine Books.since_idle ?_
  rcases hx with ⟨_, _, rfl⟩ | ⟨_, rfl⟩ <;> rfl

/-- After what leaves the books alone, whatever it is answered. -/
theorem leaves_then {β : Type} {c : ServiceM α} {k : α → ServiceM β} {post : Except ServiceError β → Books → Prop}
    (hc : Leaves config c b fun _ b' => b' = b) (herror : ∀ e, post (.error e) b)
    (hk : ∀ a, Leaves config (k a) b post) : Leaves config (c >>= k) b post := by
  refine Always.bind (hc.mono ?_)
  rintro (e | a) b' rfl
  · exact herror e
  · exact hk a

theorem leaves_snapshot (now : Timestamp) (marks : Marks) :
    Leaves config (perform (.call (.snapshot now marks))) b fun _ b' => b' = b := by
  refine Always.perform ?_
  rintro x b' ⟨w, w', _, ⟨_, rfl⟩, rfl⟩
  exact Books.since_idle (silent_snapshot blind_dealings.undated _)

theorem leaves_release : Leaves config (perform .release) b fun x b' => x = .ok () ∧ b' = b := by
  refine Always.perform ?_
  rintro x b' ⟨w, w', _, ⟨rfl, rfl⟩, rfl⟩
  exact ⟨rfl, Books.since_idle rfl⟩

theorem leaves_noteEntry (symbol : String) (now : Timestamp) :
    Leaves config (perform (.noteEntry symbol now)) b fun x b' => x = .ok () ∧ b' = b := by
  refine Always.perform ?_
  rintro x b' ⟨w, w', _, ⟨rfl, rfl⟩, rfl⟩
  exact ⟨rfl, Books.since_idle rfl⟩

theorem leaves_underLock {body : ServiceM α} {post : Except ServiceError α → Books → Prop}
    (h : Leaves config body b post) (herror : ∀ e, post (.error e) b) : Leaves config (underLock body) b post := by
  refine leaves_then leaves_acquire herror fun _ => ?_
  refine Always.bind (Always.caught (h.mono fun outcome b' hpost => ?_))
  refine Always.bind (leaves_release.mono ?_)
  rintro _ _ ⟨rfl, rfl⟩
  cases outcome with
  | ok a => exact hpost
  | error e => exact hpost

/-- Keeping the account does not fail. -/
theorem leaves_persist : Leaves config service.persist b fun x b' => x = .ok () ∧ b' = b := by
  unfold persist
  split
  · refine Always.perform ?_
    rintro x b' ⟨w, w', rfl, hx, rfl⟩
    exact ⟨rfl, Books.since_idle (by rw [hx])⟩
  · exact ⟨rfl, rfl⟩

theorem leaves_persisted {c : ServiceM α} {post : Except ServiceError α → Books → Prop} (h : Leaves config c b post) :
    Leaves config (do
      let outcome ← c
      service.persist
      return outcome) b post := by
  refine Always.bind (h.mono fun outcome b' hpost => ?_)
  cases outcome with
  | error e => exact hpost
  | ok a =>
      refine Always.bind (leaves_persist.mono ?_)
      rintro _ _ ⟨rfl, rfl⟩
      exact hpost

section Submissions

variable {request asked : SubmitOrderRequest} {requestedLeverage : Decimal} {by_ : String}

/-- The submission is accepted exactly as it opens a position. -/
def Entered (request : SubmitOrderRequest) (b : Books) (x : Except ServiceError PaperOrderResult) (b' : Books) : Prop :=
  (∃ result terms, x = .ok result ∧ result.accepted = true ∧ terms.symbol = Runtime.upper request.symbol ∧
    b' = { b with opened := b.opened ++ [terms] }) ∨
  (∀ result, x = .ok result → result.accepted = false) ∧ b' = b

theorem entered_error {e : ServiceError} : Entered request b (.error e) b := by
  refine .inr ⟨?_, rfl⟩
  rintro _ ⟨⟩

theorem leaves_submission (hsymbol : asked.symbol = request.symbol) (now : Timestamp) (mark : MarkPrice)
    (filters : Option SymbolFilters) (leverage : Leverage.LeverageDecision) (paperEnabled : Bool) (marks : Marks)
    (detail : Option String) (checks : List String) (riskMax : Option Decimal) :
    Leaves config (perform (.call (.submitOrder asked now mark filters leverage paperEnabled marks detail checks
      riskMax))) b (Entered request b) := by
  refine Always.perform ?_
  rintro x b' ⟨w, w', ⟨hreport, hnew, hbookable⟩, ⟨hx, rfl⟩, rfl⟩
  have hdeals := submitOrder_deals marks detail checks riskMax hreport
    (fun entry hfirst hdecision => hbookable hfirst entry (by rw [hdecision]; rfl)) hnew rfl
  obtain ⟨result, terms, hresult, haccepted, hterms, hdealings⟩ | ⟨hrefused, hdealings⟩ := hdeals
  · refine .inl ⟨result, terms, ?_, haccepted, hsymbol ▸ hterms, Books.since_opened hdealings⟩
    rw [hx]
    exact congrArg answered hresult
  · refine .inr ⟨fun result hresult => ?_, Books.since_idle hdealings⟩
    exact hrefused result (answered_ok (hresult.symm.trans hx))

theorem leaves_refusal (now : Timestamp) (code : RiskRejectionCode) (detail : String) (marks : Marks)
    (from_ : Provenance) :
    Leaves config (perform (.call (.refuse request now code detail marks from_))) b (Entered request b) := by
  refine Always.perform ?_
  rintro x b' ⟨w, w', _, ⟨hx, rfl⟩, rfl⟩
  refine .inr ⟨fun result hresult => ?_, Books.since_idle (silent_refuse blind_dealings _ _ _ _ _)⟩
  exact refuse_unaccepted (answered_ok (hresult.symm.trans hx))

omit [Runtime] in
theorem replay_unaccepted {id : String} {now : Timestamp} {marks : Marks} {r : Repository} {result : PaperOrderResult}
    (hnew : ∀ existing ∈ r.state.ordersByClientId.get? id, existing.isFilled = false)
    (h : ((PaperEngine.replay config id now marks).run r).1 = .ok (some result)) : result.accepted = false := by
  rw [PaperEngine.replay, run_bind_ok load_run] at h
  cases hknown : r.state.ordersByClientId.get? id with
  | none =>
      rw [hknown] at h
      cases h
  | some existing =>
      rw [hknown] at h
      obtain ⟨_, _, _, h⟩ := of_run_bind h
      rw [map_eq_pure_bind, replayed] at h
      obtain ⟨_, _, hreplayed, hresult⟩ := of_run_bind h
      have hreplayed := congrArg Prod.fst hreplayed
      obtain ⟨_, _, _, hreplayed⟩ := of_run_bind hreplayed
      obtain ⟨_, _, _, hreplayed⟩ := of_run_bind hreplayed
      obtain ⟨_, _, _, hreplayed⟩ := of_run_bind hreplayed
      cases hreplayed
      cases hresult
      exact hnew existing hknown

/-- What is repeated was not filled. -/
theorem leaves_replayKnown (now : Timestamp) (marks : Marks) :
    Leaves config (submitLocked.replayKnown request now marks) b fun x b' =>
      (∀ result, x = .ok (some result) → result.accepted = false) ∧ b' = b := by
  unfold submitLocked.replayKnown
  cases request.clientOrderId with
  | none =>
      refine ⟨?_, rfl⟩
      rintro _ ⟨⟩
  | some id =>
      refine Always.perform ?_
      rintro x b' ⟨w, w', hnew, ⟨hx, rfl⟩, rfl⟩
      refine ⟨fun result hresult => ?_, Books.since_idle (silent_replay blind_dealings.undated _ _)⟩
      exact replay_unaccepted hnew (answered_ok (hresult.symm.trans hx))

theorem leaves_submitRuled (symbol : String) (now : Timestamp) (mark : MarkPrice) (listed : Listing) (marks : Marks)
    (verdict : RiskVerdict) :
    Leaves config (service.submitRuled request symbol now mark listed marks verdict) b (Entered request b) := by
  unfold submitRuled
  split
  · have hasked : ({ request with margin := verdict.approvedMargin, quantity := none } : SubmitOrderRequest).symbol =
        request.symbol := rfl
    refine Always.bind ((leaves_submission hasked _ _ _ _ _ _ _ _ _).mono ?_)
    rintro (e | outcome) b' hentered
    · exact hentered
    · dsimp only
      split
      · refine Always.bind ((leaves_noteEntry symbol now).mono ?_)
        rintro _ _ ⟨rfl, rfl⟩
        exact hentered
      · exact hentered
  · split
    · exact leaves_refusal _ _ _ _ _
    · exact entered_error

theorem leaves_submitListed (symbol : String) (now : Timestamp) (marks : Marks) (listed : Listing) :
    Leaves config (service.submitListed request requestedLeverage by_ symbol now marks listed) b (Entered request b) := by
  have herror : ∀ e, Entered request b (.error e) b := fun _ => entered_error
  refine leaves_then (leaves_calm (performs_markIn calm_self _ _)) herror fun mark => ?_
  refine leaves_then (leaves_calm (performs_perform trivial)) herror fun volatility => ?_
  refine leaves_then (leaves_snapshot now marks) herror fun account => ?_
  refine leaves_then (leaves_calm (performs_reconciliationPending calm_self)) herror fun pending => ?_
  refine leaves_then (leaves_calm (performs_accountView calm_self _ _ _)) herror fun view => ?_
  split
  · exact entered_error
  · exact leaves_submitRuled _ _ _ _ _ _

theorem leaves_submitLocked :
    Leaves config (service.submitLocked request requestedLeverage by_) b (Entered request b) := by
  have herror : ∀ e, Entered request b (.error e) b := fun _ => entered_error
  refine leaves_then (leaves_calm (performs_perform trivial)) herror fun now => ?_
  refine leaves_then (leaves_calm (performs_openMarks calm_self)) herror fun marks => ?_
  refine Always.bind ((leaves_replayKnown now marks).mono ?_)
  rintro (e | replayed) b' ⟨hreplayed, rfl⟩
  · exact entered_error
  cases replayed with
  | some result =>
      refine .inr ⟨?_, rfl⟩
      rintro _ ⟨⟩
      exact hreplayed result rfl
  | none =>
      refine leaves_then (leaves_calm (performs_metadata calm_self _)) herror fun found => ?_
      cases found with
      | error problem => exact leaves_submission rfl _ _ _ _ _ _ _ _ _
      | ok listed => exact leaves_submitListed _ _ _ _

theorem leaves_submitOrder :
    Leaves config (service.submitOrder request requestedLeverage by_) b (Entered request b) :=
  leaves_underLock (leaves_persisted leaves_submitLocked) fun _ => entered_error

end Submissions

section Exits

/-- What the tick returns was closed by it. -/
def Ticked (b : Books) (x : Except ServiceError (PaperAccount × List PaperTrade)) (b' : Books) : Prop :=
  (∃ account closed, x = .ok (account, closed) ∧ b' = { b with closed := b.closed ++ closed }) ∨
  (∃ e, x = .error e) ∧ b' = b

theorem leaves_tick : Leaves config service.tick b (Ticked b) := by
  have herror : ∀ e, Ticked b (.error e) b := fun e => .inr ⟨⟨e, rfl⟩, rfl⟩
  refine leaves_underLock ?_ herror
  refine leaves_then (leaves_calm (performs_perform trivial)) herror fun now => ?_
  refine leaves_then (leaves_calm (performs_openMarks calm_self)) herror fun marks => ?_
  refine leaves_persisted (Always.perform ?_)
  rintro x b' ⟨w, w', hreport, ⟨hx, rfl⟩, rfl⟩
  obtain ⟨⟨account, closed⟩, t, hrun, _, hdealings⟩ := tick_closes config now marks hreport
  refine .inl ⟨account, closed, ?_, Books.since_closed ?_⟩
  · rw [hx]
    exact congrArg (fun a => answered a.1) hrun
  · rw [← hdealings]
    exact congrArg (fun a => dealings a.2) hrun

/-- The closing is accepted, with a trade, exactly as it closes a position. -/
def Left (b : Books) (x : Except ServiceError PaperOrderResult) (b' : Books) : Prop :=
  (∃ result trade, x = .ok result ∧ result.accepted = true ∧ result.trade.isSome = true ∧
    b' = { b with closed := b.closed ++ [trade] }) ∨
  (∀ result, x = .ok result → result.accepted = false) ∧ b' = b

theorem leaves_closePosition (symbol : String) (reason : PaperExitReason) :
    Leaves config (service.closePosition symbol reason) b (Left b) := by
  have herror : ∀ e, Left b (.error e) b := by
    refine fun e => .inr ⟨?_, rfl⟩
    rintro _ ⟨⟩
  refine leaves_underLock ?_ herror
  refine leaves_then (leaves_calm (performs_openMarks calm_self)) herror fun marks => ?_
  refine leaves_then (leaves_calm (performs_markIn calm_self _ _)) herror fun mark => ?_
  refine leaves_then (leaves_calm (performs_perform trivial)) herror fun now => ?_
  refine leaves_persisted (Always.perform ?_)
  rintro x b' ⟨w, w', hreport, ⟨hx, rfl⟩, rfl⟩
  obtain ⟨result, t, hrun, hdeals⟩ := closePosition_deals config now marks (Runtime.upper symbol) mark reason hreport
  have hresult : x = .ok result := hx.trans (congrArg (fun a => answered a.1) hrun)
  have hafter : after config w.repository (.closePosition (Runtime.upper symbol) now mark reason marks) = t :=
    congrArg Prod.snd hrun
  obtain ⟨hrefused, hdealings⟩ | ⟨trade, haccepted, htrade, hdealings⟩ := hdeals
  · refine .inr ⟨?_, Books.since_idle (hafter ▸ hdealings)⟩
    rintro _ rfl
    cases hresult
    exact hrefused
  · exact .inl ⟨result, trade, hresult, haccepted, htrade, Books.since_closed (hafter ▸ hdealings)⟩

theorem leaves_getAccount : Leaves config service.getAccount b fun _ b' => b' = b := by
  refine leaves_then (leaves_calm (performs_perform trivial)) (fun _ => rfl) fun now => ?_
  refine leaves_then (leaves_calm (performs_openMarks calm_self)) (fun _ => rfl) fun marks => ?_
  exact leaves_snapshot now marks

end Exits

end Services

section Decisions

variable [Runtime]

def enteredSymbols (decisions : List AutonomousDecision) : List String :=
  (decisions.filter fun d => d.action = .entered).map fun d => Runtime.upper d.symbol

/-- These decisions were recorded, one for each position that was opened among them,
and the counters went on by what was opened and closed. -/
structure Tells (loop : AutonomousLoop) (b : Books) (decisions : List AutonomousDecision) (b' : Books) : Prop where
  recorded : b'.fields.decisions =
    decisions.foldl (fun log d => newest loop.maxDecisionLog (log ++ [d])) b.fields.decisions
  entered : ∃ terms, b'.opened = b.opened ++ terms ∧ enteredSymbols decisions = terms.map (fun t => t.symbol) ∧
    b'.fields.entries = b.fields.entries + terms.length
  closed : ∃ trades, b'.closed = b.closed ++ trades ∧ b'.fields.closes = b.fields.closes + trades.length

variable {loop : AutonomousLoop} {b b' b'' : Books} {ds ds' : List AutonomousDecision}

theorem tells_refl : Tells loop b [] b :=
  ⟨rfl, ⟨[], (List.append_nil _).symm, rfl, rfl⟩, ⟨[], (List.append_nil _).symm, rfl⟩⟩

theorem Tells.trans (h : Tells loop b ds b') (h' : Tells loop b' ds' b'') : Tells loop b (ds ++ ds') b'' := by
  obtain ⟨terms, hopened, hsymbols, hentries⟩ := h.entered
  obtain ⟨terms', hopened', hsymbols', hentries'⟩ := h'.entered
  obtain ⟨trades, hclosed, hcloses⟩ := h.closed
  obtain ⟨trades', hclosed', hcloses'⟩ := h'.closed
  refine ⟨?_, ⟨terms ++ terms', ?_, ?_, ?_⟩, ⟨trades ++ trades', ?_, ?_⟩⟩
  · rw [h'.recorded, h.recorded, List.foldl_append]
  · rw [hopened', hopened, List.append_assoc]
  · rw [List.map_append, ← hsymbols, ← hsymbols', enteredSymbols, List.filter_append, List.map_append]
    rfl
  · rw [hentries', hentries, List.length_append, Nat.add_assoc]
  · rw [hclosed', hclosed, List.append_assoc]
  · rw [hcloses', hcloses, List.length_append, Nat.add_assoc]

theorem Tells.cons {d : AutonomousDecision} (h : Tells loop b [d] b') (h' : Tells loop b' ds b'') :
    Tells loop b (d :: ds) b'' := h.trans h'

/-- After what was said, more may be recorded; what is returned has said all of it. -/
def Speaks {α : Type} (loop : AutonomousLoop) (said : List AutonomousDecision) (told : α → List AutonomousDecision)
    (b : Books) (x : Except ServiceError α) (b' : Books) : Prop :=
  ∃ ds, Tells loop b ds b' ∧ ∀ a, x = .ok a → told a = said ++ ds

end Decisions

section Iterations

open AutonomousLoop

variable [Runtime] {config : PaperEngineConfig} {loop : AutonomousLoop} {b : Books} {α β : Type}
  {said : List AutonomousDecision}

theorem speaks_ret {told : α → List AutonomousDecision} {a : α} (h : told a = said) :
    Speaks loop said told b (.ok a) b := by
  refine ⟨[], tells_refl, ?_⟩
  rintro _ ⟨⟩
  rw [h, List.append_nil]

theorem speaks_error {told : α → List AutonomousDecision} {e : ServiceError} : Speaks loop said told b (.error e) b := by
  refine ⟨[], tells_refl, ?_⟩
  rintro _ ⟨⟩

/-- What goes on from what was told before. -/
theorem always_onward {c : LoopM α} {told : α → List AutonomousDecision} {b' : Books} (h : Tells loop b said b')
    (hc : c.Always (amid config) b' (Speaks loop said told b')) :
    c.Always (amid config) b' (Speaks loop [] told b) := by
  refine hc.mono ?_
  rintro x b'' ⟨ds, htells, htold⟩
  exact ⟨said ++ ds, h.trans htells, fun a ha => htold a ha⟩

/-- The decisions of a part come after those of the part before it. -/
theorem always_bind {c : LoopM α} {k : α → LoopM β} {told : α → List AutonomousDecision}
    {told' : β → List AutonomousDecision} (hc : c.Always (amid config) b (Speaks loop said told b))
    (hk : ∀ a b, (k a).Always (amid config) b (Speaks loop (told a) told' b)) :
    (c >>= k).Always (amid config) b (Speaks loop said told' b) := by
  refine Always.bind (hc.mono ?_)
  rintro (e | a) b₁ ⟨ds, htells, htold⟩
  · refine ⟨ds, htells, ?_⟩
    rintro _ ⟨⟩
  · refine (hk a b₁).mono ?_
    rintro x b₂ ⟨ds', htells', htold'⟩
    refine ⟨ds ++ ds', htells.trans htells', fun v hv => ?_⟩
    rw [htold' v hv, htold a rfl, List.append_assoc]

theorem speaks_shift {told : α → List AutonomousDecision} {x : Except ServiceError α} {b' : Books}
    (h : Speaks loop [] told b x b') (said : List AutonomousDecision) :
    Speaks loop said (fun a => said ++ told a) b x b' := by
  obtain ⟨ds, htells, htold⟩ := h
  exact ⟨ds, htells, fun a ha => congrArg (said ++ ·) (htold a ha)⟩

/-- What leaves the books alone told nothing. -/
theorem always_silent {c : LoopM α} (h : c.Always (amid config) b fun _ b' => b' = b) :
    c.Always (amid config) b (Speaks loop said (fun _ => said) b) := by
  refine h.mono ?_
  rintro x b' rfl
  exact ⟨[], tells_refl, fun _ _ => (List.append_nil _).symm⟩

theorem always_fields (f : Fields → α × Fields) : (perform (.fields f)).Always (amid config) b fun x b' =>
    x = .ok (f b.fields).1 ∧ b' = { b with fields := (f b.fields).2 } :=
  Always.perform fun _ _ hx => hx

/-- What touches neither log nor counters told nothing. -/
theorem always_aside (f : Fields → α × Fields)
    (hf : ∀ s, (f s).2.decisions = s.decisions ∧ (f s).2.entries = s.entries ∧ (f s).2.closes = s.closes) :
    (perform (.fields f)).Always (amid config) b (Speaks loop said (fun _ => said) b) := by
  refine (always_fields f).mono ?_
  rintro _ _ ⟨rfl, rfl⟩
  obtain ⟨hdecisions, hentries, hcloses⟩ := hf b.fields
  refine ⟨[], ⟨hdecisions, ⟨[], (List.append_nil _).symm, rfl, hentries⟩, ⟨[], (List.append_nil _).symm, hcloses⟩⟩, ?_⟩
  exact fun _ _ => (List.append_nil _).symm

/-- A decision that is no entry, after what has recorded none. -/
theorem always_record {b₁ : Books} {ds : List AutonomousDecision} (h : Tells loop b ds b₁) {finding : Finding}
    (hfinding : finding.action ≠ .entered) :
    (loop.record finding).Always (amid config) b₁ fun x b' => ∃ d, x = .ok d ∧ Tells loop b (ds ++ [d]) b' := by
  refine (always_fields _).mono ?_
  rintro _ _ ⟨rfl, rfl⟩
  refine ⟨_, rfl, h.trans ⟨rfl, ⟨[], (List.append_nil _).symm, ?_, rfl⟩, ⟨[], (List.append_nil _).symm, rfl⟩⟩⟩
  simp [enteredSymbols, hfinding]

/-- What is returned is what was recorded, and what raises has recorded nothing. -/
def Finds (loop : AutonomousLoop) (told : α → List AutonomousDecision) (b : Books) (x : Except ServiceError α)
    (b' : Books) : Prop :=
  (∃ a, x = .ok a ∧ Tells loop b (told a) b') ∨ (∃ e, x = .error e) ∧ b' = b

theorem finds_recorded {b₁ : Books} (h : Tells loop b [] b₁) {finding : Finding} (hfinding : finding.action ≠ .entered)
    {f : AutonomousDecision → α} {told : α → List AutonomousDecision} (htold : ∀ d, told (f d) = [d]) :
    (do return f (← loop.record finding)).Always (amid config) b₁ (Finds loop told b) := by
  refine Always.bind ((always_record h hfinding).mono ?_)
  rintro _ b' ⟨d, rfl, htells⟩
  refine .inl ⟨f d, rfl, ?_⟩
  rw [htold]
  exact htells

theorem finds_then {c : LoopM α} {k : α → LoopM β} {told : β → List AutonomousDecision}
    (hc : c.Always (amid config) b fun _ b' => b' = b) (hk : ∀ a, (k a).Always (amid config) b (Finds loop told b)) :
    (c >>= k).Always (amid config) b (Finds loop told b) := by
  refine Always.bind (hc.mono ?_)
  rintro (e | a) b' rfl
  · exact .inr ⟨⟨e, rfl⟩, rfl⟩
  · exact hk a

theorem finds_returning {c : LoopM α} {told : α → List AutonomousDecision} {f : α → β}
    {told' : β → List AutonomousDecision} (hc : c.Always (amid config) b (Finds loop told b))
    (hf : ∀ a, told' (f a) = told a) :
    (do return f (← c)).Always (amid config) b (Finds loop told' b) := by
  refine Always.bind (hc.mono ?_)
  rintro _ b' (⟨a, rfl, htells⟩ | ⟨⟨e, rfl⟩, rfl⟩)
  · refine .inl ⟨f a, rfl, ?_⟩
    rw [hf]
    exact htells
  · exact .inr ⟨⟨e, rfl⟩, rfl⟩

theorem always_proposeEntry (symbol : String) (evaluation : Evaluation) (account : PaperAccount) (now : Timestamp) :
    (loop.proposeEntry symbol evaluation account now).Always (amid config) b (Finds loop id b) := by
  refine Always.bind ((Always.expand leaves_submitOrder).mono ?_)
  rintro (e | outcome) b' hentered
  · obtain ⟨_, _, ⟨⟩, _⟩ | ⟨_, rfl⟩ := hentered
    exact .inr ⟨⟨e, rfl⟩, rfl⟩
  dsimp only
  obtain ⟨_, terms, ⟨⟩, haccepted, hsymbol, rfl⟩ | ⟨hrefused, rfl⟩ := hentered
  · rw [if_pos haccepted]
    refine Always.bind ((always_fields _).mono ?_)
    rintro _ _ ⟨rfl, rfl⟩
    refine Always.bind ((always_fields _).mono ?_)
    rintro _ _ ⟨rfl, rfl⟩
    refine .inl ⟨[_], rfl, rfl, ⟨[terms], rfl, ?_, rfl⟩, ⟨[], (List.append_nil _).symm, rfl⟩⟩
    simp [enteredSymbols, hsymbol, entryRequest]
  · rw [if_neg (by simp [hrefused outcome rfl])]
    refine Always.bind ((always_fields _).mono ?_)
    rintro _ _ ⟨rfl, rfl⟩
    have hcounted : Tells loop b' [] { b' with fields := { b'.fields with refusals := b'.fields.refusals + 1 } } :=
      ⟨rfl, ⟨[], (List.append_nil _).symm, rfl, rfl⟩, ⟨[], (List.append_nil _).symm, rfl⟩⟩
    exact finds_recorded hcounted (by simp) fun _ => rfl

theorem always_manageOpen (symbol : String) (side : PositionSide) (evaluation : Evaluation) (now : Timestamp) :
    (loop.manageOpen symbol side evaluation now).Always (amid config) b (Finds loop id b) := by
  unfold manageOpen
  dsimp only
  split
  · refine Always.bind ((Always.expand (leaves_closePosition symbol .signalFlip)).mono ?_)
    rintro (e | outcome) b' hleft
    · obtain ⟨_, _, ⟨⟩, _⟩ | ⟨_, rfl⟩ := hleft
      exact .inr ⟨⟨e, rfl⟩, rfl⟩
    obtain ⟨_, trade, ⟨⟩, haccepted, htrade, rfl⟩ | ⟨hrefused, rfl⟩ := hleft
    · obtain ⟨trade', htrade'⟩ := Option.isSome_iff_exists.mp htrade
      simp only [haccepted, htrade']
      refine Always.bind ((always_fields _).mono ?_)
      rintro _ _ ⟨rfl, rfl⟩
      have hcounted : Tells loop b [] { b with
          closed := b.closed ++ [trade], fields := { b.fields with closes := b.fields.closes + 1 } } :=
        ⟨rfl, ⟨[], (List.append_nil _).symm, rfl, rfl⟩, ⟨[trade], rfl, rfl⟩⟩
      exact finds_recorded hcounted (by simp) fun _ => rfl
    · have haccepted := hrefused outcome rfl
      simp only [haccepted]
      exact finds_recorded tells_refl (by simp) fun _ => rfl
  · exact finds_recorded tells_refl (by simp) fun _ => rfl

theorem always_evaluateSymbol (symbol : String) (account : PaperAccount) (now : Timestamp) :
    (loop.evaluateSymbol symbol account now).Always (amid config) b (Finds loop Prod.fst b) := by
  refine finds_then (Always.perform fun _ _ hx => hx) fun found => ?_
  cases found with
  | error problem => exact finds_recorded tells_refl (by simp) fun _ => rfl
  | ok evaluation =>
      dsimp only
      split
      · exact finds_returning (always_manageOpen _ _ _ _) fun _ => rfl
      · split
        · exact finds_recorded tells_refl (by simp) fun _ => rfl
        · split
          · exact finds_recorded tells_refl (by simp) fun _ => rfl
          · exact finds_returning (always_proposeEntry _ _ _ _) fun _ => rfl

theorem speaks_of_finds {told : α → List AutonomousDecision} {x : Except ServiceError α} {b' : Books}
    (h : Finds loop told b x b') (said : List AutonomousDecision) :
    Speaks loop said (fun a => said ++ told a) b x b' := by
  rcases h with ⟨a, rfl, htells⟩ | ⟨⟨e, rfl⟩, rfl⟩
  · refine ⟨told a, htells, ?_⟩
    rintro _ ⟨⟩
    rfl
  · exact speaks_error

theorem always_attempt (symbol : String) (account : PaperAccount) (now : Timestamp) :
    (loop.attempt symbol account now).Always (amid config) b (Speaks loop [] Prod.fst b) := by
  refine Always.bind (Always.caught ((always_evaluateSymbol symbol account now).mono ?_))
  rintro _ b' (⟨found, rfl, htells⟩ | ⟨⟨e, rfl⟩, rfl⟩)
  · refine ⟨found.1, htells, ?_⟩
    rintro _ ⟨⟩
    rfl
  · have hskipped : ∀ detail : String, (do
        return ([← loop.record { symbol := symbol, action := .skipped, detail := detail, decidedAt := now }], true) :
          LoopM (List AutonomousDecision × Bool)).Always (amid config) b' (Speaks loop [] Prod.fst b') :=
      fun _ => (finds_recorded tells_refl (by simp) fun _ => rfl).mono fun _ _ hfinds => speaks_of_finds hfinds []
    cases e with
    | cancelled => exact speaks_error
    | _ => exact hskipped _

theorem always_asked {c : ServiceM α} (h : Leaves config c b fun _ b' => b' = b) :
    (asked .autonomous c).Always (amid config) b (Speaks loop said (fun _ => said) b) := always_silent (Always.expand h)

theorem always_evaluateAll (started : Timestamp) (symbols : List String) (account : PaperAccount) :
    (loop.evaluateAll started symbols account).Always (amid config) b (Speaks loop [] Prod.fst b) := by
  induction symbols generalizing account b with
  | nil => exact speaks_ret rfl
  | cons symbol rest ih =>
      refine always_bind (always_attempt symbol account started) fun ⟨decisions, failed⟩ b => ?_
      have hmore : ∀ (count : Nat) b, (do
          let account ← asked .autonomous loop.paper.getAccount
          let found ← loop.evaluateAll started rest account
          return (decisions ++ found.1, found.2 + count) : LoopM (List AutonomousDecision × Nat)).Always (amid config) b
            (Speaks loop decisions Prod.fst b) := by
        intro count b
        refine always_bind (always_asked leaves_getAccount) fun account b => ?_
        exact always_bind ((ih account).mono fun _ _ h => speaks_shift h decisions) fun _ _ => speaks_ret rfl
      cases failed with
      | true =>
          refine always_bind (always_aside _ fun s => ?_) fun _ b => hmore 1 b
          dsimp only
          split <;> exact ⟨rfl, rfl, rfl⟩
      | false => exact always_bind (always_aside _ fun _ => ⟨rfl, rfl, rfl⟩) fun _ b => hmore 0 b

/-- What was closed before is counted now. -/
theorem always_recordClosed (started : Timestamp) (closed : List PaperTrade) :
    (loop.recordClosed started closed).Always (amid config) { b with closed := b.closed ++ closed }
      fun x b' => ∃ ds, x = .ok ds ∧ Tells loop b ds b' := by
  induction closed generalizing b with
  | nil => exact ⟨[], rfl, by rw [List.append_nil]; exact tells_refl⟩
  | cons trade rest ih =>
      rw [List.append_cons]
      refine Always.bind ((always_fields _).mono ?_)
      rintro _ _ ⟨rfl, rfl⟩
      refine Always.bind ((always_fields _).mono ?_)
      rintro _ _ ⟨rfl, rfl⟩
      refine Always.bind ((ih (b := ⟨_, b.opened, b.closed ++ [trade]⟩)).mono ?_)
      rintro _ b' ⟨more, rfl, htells⟩
      refine ⟨_, rfl, Tells.cons ?_ htells⟩
      refine ⟨rfl, ⟨[], (List.append_nil _).symm, ?_, rfl⟩, ⟨[trade], rfl, rfl⟩⟩
      simp [enteredSymbols]

theorem always_finishIteration (started : Timestamp) (failures evaluated : Nat) :
    (finishIteration started failures evaluated).Always (amid config) b (Speaks loop said (fun _ => said) b) := by
  refine always_bind (always_asked (leaves_calm (performs_perform trivial))) fun now b => ?_
  exact always_aside _ fun _ => ⟨rfl, rfl, rfl⟩

/-- An iteration returns what it has recorded, and each entry in it is a position. -/
theorem always_runOnce : loop.runOnce.Always (amid config) b (Speaks loop [] id b) := by
  refine always_bind (always_asked (leaves_calm (performs_perform trivial))) fun started b => ?_
  refine always_bind (always_aside _ fun _ => ⟨rfl, rfl, rfl⟩) fun symbols b => ?_
  cases symbols with
  | nil =>
      refine Always.bind ((always_record tells_refl (by simp)).mono ?_)
      rintro _ b₁ ⟨decision, rfl, htells⟩
      refine always_onward htells ?_
      exact always_bind (always_finishIteration started 0 0) fun _ _ => speaks_ret rfl
  | cons symbol rest =>
      refine Always.bind ((Always.expand leaves_tick).mono ?_)
      rintro _ b₁ (⟨account, closed, rfl, rfl⟩ | ⟨⟨e, rfl⟩, rfl⟩)
      · refine Always.bind ((always_recordClosed started closed).mono ?_)
        rintro _ b₂ ⟨managed, rfl, htells⟩
        refine always_onward htells ?_
        refine always_bind ((always_evaluateAll started (symbol :: rest) account).mono fun _ _ h =>
          speaks_shift h managed) fun found b => ?_
        exact always_bind (always_finishIteration started found.2 _) fun _ _ => speaks_ret rfl
      · exact speaks_error

end Iterations

section Runs

variable [Runtime]

/-- One iteration, however it ends. -/
def Iterates (config : PaperEngineConfig) (loop : AutonomousLoop) (b b' : Books) : Prop :=
  ∃ x, loop.runOnce.Runs (amid config) b x b'

/-- What an iteration has recorded is what it returns, and each of its entries is a position that it opened. -/
def Recounts (loop : AutonomousLoop) (b : Books) (x : Except ServiceError (List AutonomousDecision)) (b' : Books) :
    Prop := ∃ decisions, Tells loop b decisions b' ∧ ∀ returned, x = .ok returned → returned = decisions

/-- However many iterations there were, with whatever became of the account meanwhile,
the counters count what the loop opened and closed. -/
theorem counters_count (config : PaperEngineConfig) (loop : AutonomousLoop) (b : Books)
    (h : Relation.ReflTransGen (Iterates config loop) {} b) :
    b.fields.entries = b.opened.length ∧ b.fields.closes = b.closed.length ∧
      ∀ x b', loop.runOnce.Runs (amid config) b x b' → Recounts loop b x b' := by
  have htells : ∀ b x b', loop.runOnce.Runs (amid config) b x b' → Recounts loop b x b' := by
    intro b x b' hrun
    obtain ⟨ds, htells, htold⟩ := Always.of_runs always_runOnce hrun
    exact ⟨ds, htells, htold⟩
  have hcounts : b.fields.entries = b.opened.length ∧ b.fields.closes = b.closed.length := by
    induction h with
    | refl => exact ⟨rfl, rfl⟩
    | tail _ hstep ih =>
        obtain ⟨x, hrun⟩ := hstep
        obtain ⟨ds, htells, _⟩ := htells _ x _ hrun
        obtain ⟨terms, hopened, _, hentries⟩ := htells.entered
        obtain ⟨trades, hclosed, hcloses⟩ := htells.closed
        rw [hentries, hcloses, hopened, hclosed, List.length_append, List.length_append, ih.1, ih.2]
        exact ⟨rfl, rfl⟩
  exact ⟨hcounts.1, hcounts.2, htells b⟩

end Runs

section Process

variable [Runtime] (config : PaperEngineConfig)

/-- The process with its loop alone. -/
structure Shop where
  base : World
  books : Books := {}

def exec : Semantics Autonomous.Effect ServiceError Shop
  | _, .paper _ f, s, x, s' => PaperWorld.exec config f s.base x s'.base ∧
      s'.books = s.books.since s.base.repository s'.base.repository
  | _, .candles _ _, s, _, s' => s' = s
  | _, .fields f, s, x, s' => x = .ok (f s.books.fields).1 ∧
      s' = { s with books := { s.books with fields := (f s.books.fields).2 } }

def permits : {β : Type} → Autonomous.Effect β → Shop → Except ServiceError β → Prop
  | _, .paper _ f, s, x => Permitted config f s.base x
  | _, _, _, _ => True

variable {config}

/-- A run of the process alone is one of the runs amid whatever may happen. -/
theorem runs_amid {α : Type} {c : LoopM α} {s s' : Shop} {x : Except ServiceError α}
    (h : c.Runs (fun f s x s' => permits config f s x ∧ exec config f s x s') s x s') :
    c.Runs (amid config) s.books x s'.books := by
  induction c generalizing s with
  | ret a => exact ⟨h.1, congrArg Shop.books h.2⟩
  | raise e => exact ⟨h.1, congrArg Shop.books h.2⟩
  | await f k ih =>
      obtain ⟨y, s₁, ⟨hpermitted, hy⟩, hk⟩ := h
      refine ⟨y, s₁.books, ?_, ih y hk⟩
      cases f with
      | paper origin f => exact ⟨s.base, s₁.base, hpermitted, hy.1, hy.2⟩
      | candles => exact congrArg Shop.books hy
      | fields f => exact ⟨hy.1, congrArg Shop.books hy.2⟩

end Process

section Examples

instance (t : EntryTerms) : Decidable (Reports t) :=
  decidable_of_iff (0 < t.quantity ∧ 0 < t.entryPrice ∧ 0 < t.notional ∧ 0 < t.margin ∧ 1 ≤ t.approvedLeverage ∧
    0 ≤ t.entryFee) ⟨fun ⟨hq, hp, hn, hm, hl, hf⟩ => ⟨hq, hp, hn, hm, hl, hf⟩,
    fun h => ⟨h.quantity, h.entryPrice, h.notional, h.margin, h.leverage, h.entryFee⟩⟩

instance (s : PaperState) : Decidable (Reportable s) :=
  inferInstanceAs (Decidable (∀ p ∈ s.positions.values, Reports p.toEntryTerms))

instance (config : PaperEngineConfig) (entry : PaperPricing.Entry) : Decidable (Bookable config entry) :=
  decidable_of_iff (0 < entry.quantity ∧ 0 < entry.price ∧ 0 < entry.notional ∧ 0 < entry.margin ∧
    1 ≤ entry.approvedLeverage ∧ 0 ≤ entryFee config entry) ⟨fun ⟨hq, hp, hn, hm, hl, hf⟩ => ⟨hq, hp, hn, hm, hl, hf⟩,
    fun h => ⟨h.quantity, h.price, h.notional, h.margin, h.leverage, h.fee⟩⟩

instance (config : PaperEngineConfig) (r : Repository) (request : SubmitOrderRequest)
    (decision : Except PaperPricing.Decline PaperPricing.Entry) : Decidable (Enters config r request decision) :=
  inferInstanceAs (Decidable (_ ∧ (_ → _)))

/-- A world, and what its candles show. -/
def shopAnswers [Runtime] (config : PaperEngineConfig) (venue : Venue) (seen : Evaluation) :
    {β : Type} → Autonomous.Effect β → Shop → Except ServiceError β × Shop
  | _, .paper _ f, s =>
      ((venue.answers config f s.base).1,
        { base := (venue.answers config f s.base).2
          books := s.books.since s.base.repository (venue.answers config f s.base).2.repository })
  | _, .candles _ _, s => (.ok (.ok seen), s)
  | _, .fields f, s => (.ok (f s.books.fields).1, { s with books := { s.books with fields := (f s.books.fields).2 } })

theorem exec_shopAnswers [Runtime] {config : PaperEngineConfig} (venue : Venue) (seen : Evaluation) {β : Type}
    (f : Autonomous.Effect β) (s : Shop) :
    exec config f s (shopAnswers config venue seen f s).1 (shopAnswers config venue seen f s).2 := by
  cases f with
  | paper origin f => exact ⟨PaperWorld.exec_answers venue f s.base, rfl⟩
  | candles => rfl
  | fields f => exact ⟨rfl, rfl⟩

def iterated (bid : Decimal) (now : Timestamp) (s : Shop) : Except ServiceError (List AutonomousDecision) × Shop :=
  (@AutonomousLoop.runOnce exampleLoop referenceRuntime).interp
    (@shopAnswers referenceRuntime shortLog (quoted now bid) rising) s

def opening : Shop := { base := booted 1000 0 .inMemory }

/-- A position is opened at one hundred. -/
def bought : Shop := (iterated 99 1000000 opening).2

/-- It is stopped out at ninety, and the loop proposes the bar again. -/
def proposedAgain : Shop := (iterated 90 120000000 bought).2

/-- Whether the loop may do so, whatever is answered. -/
def allows [Runtime] (config : PaperEngineConfig) : {β : Type} → Autonomous.Effect β → Shop → Bool
  | _, .paper _ (.call (.replay id _ _)), s =>
      decide (∀ existing ∈ s.base.repository.state.ordersByClientId.get? id, existing.isFilled = false)
  | _, .paper _ (.call (.submitOrder request now mark filters leverage paperEnabled _ _ _ _)), s =>
      decide (Reportable s.base.repository.state ∧ Enters config s.base.repository request
        (decisionOn config s.base.repository request now mark filters leverage paperEnabled))
  | _, .paper _ (.call (.tick _ _)), s | _, .paper _ (.call (.closePosition _ _ _ _ _)), s =>
      decide (Reportable s.base.repository.state)
  | _, _, _ => true

theorem permits_of_allows [Runtime] {config : PaperEngineConfig} (venue : Venue) (seen : Evaluation) {β : Type}
    (f : Autonomous.Effect β) (s : Shop) (h : allows config f s = true) :
    permits config f s (shopAnswers config venue seen f s).1 := by
  cases f with
  | candles | fields => trivial
  | paper origin f =>
      cases f with
      | call op =>
          cases op with
          | replay | submitOrder | tick | closePosition =>
              rw [allows] at h
              have hallowed := of_decide_eq_true h
              exact hallowed
          | refuse | snapshot | setEmergencyStop => trivial
      | save => rfl
      | _ => trivial

theorem runs_allowed [Runtime] {config : PaperEngineConfig} {venue : Venue} {seen : Evaluation} {α : Type} {c : LoopM α}
    {s : Shop} (h : c.meets (shopAnswers config venue seen) (allows config) s = true) :
    c.Runs (amid config) s.books (c.interp (shopAnswers config venue seen) s).1
      (c.interp (shopAnswers config venue seen) s).2.books :=
  runs_amid (runs_of_meets (fun f s hf => ⟨permits_of_allows venue seen f s hf, exec_shopAnswers venue seen f s⟩) h)

theorem counters_count_bought : bought.books.opened.length = 1 ∧
    bought.books.fields.entries = bought.books.opened.length ∧ bought.books.fields.closes = bought.books.closed.length ∧
    ∀ x b', (@AutonomousLoop.runOnce exampleLoop referenceRuntime).Runs (@amid referenceRuntime shortLog) bought.books x
      b' → @Recounts referenceRuntime exampleLoop bought.books x b' := by
  have hmeets : (@AutonomousLoop.runOnce exampleLoop referenceRuntime).meets
      (@shopAnswers referenceRuntime shortLog (quoted 1000000 99) rising) (@allows referenceRuntime shortLog) opening =
        true := by decide +kernel
  refine ⟨by decide +kernel, ?_⟩
  exact @counters_count referenceRuntime shortLog exampleLoop bought.books
    (.single ⟨_, @runs_allowed referenceRuntime _ _ _ _ _ _ hmeets⟩)

theorem iterated_runs (bid : Decimal) (now : Timestamp) (s : Shop) :
    (@AutonomousLoop.runOnce exampleLoop referenceRuntime).Runs (@exec referenceRuntime shortLog) s
      (iterated bid now s).1 (iterated bid now s).2 :=
  runs_interp (@exec_shopAnswers referenceRuntime shortLog _ _) _ _

/-- One position was opened, and two entries are reported. -/
theorem replay_counted : ¬ ∀ (config : PaperEngineConfig) (loop : AutonomousLoop) (startingBalance : Decimal)
    (now : Timestamp) (durability : Durability) (s : Shop),
    Relation.ReflTransGen (fun s s' => ∃ x, (@AutonomousLoop.runOnce loop referenceRuntime).Runs
      (@exec referenceRuntime config) s x s') { base := booted startingBalance now durability } s →
    s.books.fields.entries = s.books.opened.length ∧ s.books.fields.closes = s.books.closed.length ∧
      ∀ x s', (@AutonomousLoop.runOnce loop referenceRuntime).Runs (@exec referenceRuntime config) s x s' →
        @Recounts referenceRuntime loop s.books x s'.books := by
  intro hclaim
  have hentries := (hclaim shortLog exampleLoop 1000 0 .inMemory proposedAgain
    (.tail (.single ⟨_, iterated_runs 99 1000000 opening⟩) ⟨_, iterated_runs 90 120000000 bought⟩)).1
  have hcounts : proposedAgain.books.fields.entries = 2 ∧ proposedAgain.books.opened.length = 1 := by decide +kernel
  rw [hcounts.1, hcounts.2] at hentries
  omega

end Examples

end Aetheris.AutonomousCounters
