import Aetheris.Lib.SoleRun
import Aetheris.Lifespan

namespace Aetheris.LifespanRuns

open Lib Coroutine Money Clock Lifespan
open OrderEngine (RecoveryReport)
open TestnetRequests (positionSideDual)
open VenueAnswers (Interpreter Json)

inductive Stage
  | absent | opened | closed
  deriving DecidableEq

/-- What became of the database, by account. -/
structure Stores where
  recovered : List (String × RecoveryReport) := []
  orderEngine : Option String := none
  snapshotStore : Option String := none
  restored : Option Bool := none

/-- What the venue has answered, in order. -/
structure Venue where
  offsetMs : Option Int := none
  heard : List (String × Json) := []

/-- The market data service is there before the process starts. -/
def booted (resource : Resource) : Stage := if resource = .marketData then .opened else .absent

structure Process where
  stage : Resource → Stage := booted
  stores : Stores := {}
  venue : Venue := {}
  reasons : List Reason := []
  served : List AppState := []
  jammed : List Resource := []
  misused : Bool := false

namespace Process

variable (w : Process)

def put (resource : Resource) (stage : Stage) : Process := { w with stage := Function.update w.stage resource stage }

theorem stage_put (resource : Resource) (stage : Stage) : (w.put resource stage).stage resource = stage := by
  simp [put]

theorem stage_put_of_ne {resource x : Resource} (stage : Stage) (h : x ≠ resource) :
    (w.put resource stage).stage x = w.stage x := by simp [put, h]

/-- Nothing is used before it is opened or after it is closed, nothing is signed by a clock that was not
compared, and nothing is closed underneath the loop. -/
def allows {β : Type} : LifeEffect β → Bool
  | .buildEngine => w.stage .pool = .absent
  | .checkConnectivity | .ensureOwner | .ensureAccount _ _ | .recover _ _ => w.stage .pool = .opened
  | .restore => w.stage .pool = .opened && w.stores.snapshotStore.isSome
  | .openAdapter => w.stage .adapter = .absent
  | .request signed _ => w.stage .adapter = .opened && (!signed || w.venue.offsetMs.isSome)
  | .startLoop => w.stage .loop = .absent
  | .serve app =>
      w.stage .loop = .opened && w.stage .marketData = .opened &&
        (!app.testnetAdapter || w.stage .adapter = .opened) && (!app.dbEngine || w.stage .pool = .opened)
  | .close resource => w.stage resource = .opened && (resource = .loop || w.stage .loop ≠ .opened)
  | _ => true

/-- What an effect leaves, by what it answered. -/
def moved : {β : Type} → LifeEffect β → Except Mishap β → Process
  | _, .buildEngine, .ok _ => w.put .pool .opened
  | _, .recover accountId _, .ok report =>
      { w with stores := { w.stores with recovered := w.stores.recovered ++ [(accountId, report)] } }
  | _, .bindOrderEngine accountId, .ok _ => { w with stores := { w.stores with orderEngine := some accountId } }
  | _, .bindSnapshotStore accountId, .ok _ => { w with stores := { w.stores with snapshotStore := some accountId } }
  | _, .restore, .ok restored => { w with stores := { w.stores with restored := some restored } }
  | _, .openAdapter, .ok _ => w.put .adapter .opened
  | _, .request _ path, .ok answer => { w with venue := { w.venue with heard := w.venue.heard ++ [(path, answer)] } }
  | _, .offsetClock offsetMs, .ok _ => { w with venue := { w.venue with offsetMs := some offsetMs } }
  | _, .unavailable reason, .ok _ => { w with reasons := w.reasons ++ [reason] }
  | _, .startLoop, .ok _ => w.put .loop .opened
  | _, .serve app, _ => { w with served := w.served ++ [app] }
  | _, .close resource, .ok _ => w.put resource .closed
  | _, .close resource, .error _ => { w.put resource .closed with jammed := w.jammed ++ [resource] }
  | _, _, _ => w

def after {β : Type} (f : LifeEffect β) (r : Except Mishap β) : Process :=
  { w.moved f r with misused := w.misused || !w.allows f }

end Process

/-- An effect may answer anything, and any of them may raise. -/
def exec : Semantics LifeEffect Mishap Process
  | _, f, w, r, w' => w' = w.after f r

variable {α : Type} {w w' : Process}

theorem moved_misused {β : Type} (f : LifeEffect β) (r : Except Mishap β) : (w.moved f r).misused = w.misused := by
  cases f <;> cases r <;> rfl

theorem after_of_allowed {β : Type} {f : LifeEffect β} {r : Except Mishap β} (h : w.allows f = true) :
    w.after f r = w.moved f r := by
  rw [Process.after, h, ← moved_misused f r]
  simp

theorem allows_close {resource : Resource} (hopened : w.stage resource = .opened)
    (hloop : resource = .loop ∨ w.stage .loop ≠ .opened) : w.allows (.close resource) = true := by
  simp [Process.allows, hopened, hloop]

theorem always_perform {β : Type} {f : LifeEffect β} {post : Except Mishap β → Process → Prop}
    (hallowed : w.allows f = true) (h : ∀ r, post r (w.moved f r)) : (perform f).Always exec w post := by
  apply Always.perform
  rintro r w' rfl
  rw [after_of_allowed hallowed]
  exact h r

/-- An effect that is allowed leads on with its answer, or out with its exception. -/
theorem always_then {β : Type} {f : LifeEffect β} {k : β → LifeM α} {post : Except Mishap α → Process → Prop}
    (hallowed : w.allows f = true) (hok : ∀ b, (k b).Always exec (w.moved f (.ok b)) post)
    (herror : ∀ e, post (.error e) (w.moved f (.error e))) : (perform f >>= k).Always exec w post := by
  refine Always.bind (always_perform hallowed fun r => ?_)
  cases r with
  | ok b => exact hok b
  | error e => exact herror e

/-! ### The stores -/

/-- Nothing has been served, and the loop was not started. -/
structure Unserved (w : Process) : Prop where
  misused : w.misused = false
  served : w.served = []
  loop : w.stage .loop = .absent

theorem Unserved.not_running (h : Unserved w) : w.stage .loop ≠ .opened := by
  rw [h.loop]
  decide

/-- Orders are kept and what was left of them is recovered, or nothing is claimed of them. -/
def OrdersKept (app : AppState) (stores : Stores) : Prop :=
  match app.orderAccountId with
  | some accountId =>
      app.dbEngine = true ∧ app.dbSessions = true ∧ app.paperSnapshots = true ∧ ∃ report,
        app.orderRecovery = some report ∧
          stores = ⟨[(accountId, report)], some accountId, some accountId, some app.paperRestored⟩
  | none =>
      stores = {} ∧ app.orderRecovery = none ∧ app.paperSnapshots = false ∧ app.paperRestored = false

/-- Before the venue is asked. -/
structure Prepared (settings : Settings) (app : AppState) (w : Process) : Prop extends Unserved w where
  marketData : w.stage .marketData = .opened
  adapter : w.stage .adapter = .absent
  pool : w.stage .pool = if app.dbEngine then .opened else .absent
  venue : w.venue = {}
  reasons : w.reasons = []
  jammed : w.jammed = []
  configured : app.dbEngine = settings.databaseConfigured
  orders : OrdersKept app w.stores
  testnetAdapter : app.testnetAdapter = false
  testnetService : app.testnetService = none

/-- A step of starting ends in `post`, or raises with nothing served. -/
def Starts (post : α → Process → Prop) : Except Mishap α → Process → Prop
  | .ok a, w => post a w
  | .error _, w => Unserved w

section

variable (settings : Settings)

/-- The process once the pool of connections is there. -/
def pooled : Process := Process.put {} .pool .opened

theorem unserved_pooled (stores : Stores) : Unserved { pooled with stores := stores } := ⟨rfl, rfl, rfl⟩

theorem attachOrders_always (hconfigured : settings.databaseConfigured = true) (accountId : String) :
    (attachOrders accountId).Always exec pooled (Starts (Prepared settings)) := by
  refine always_then rfl (fun now => ?_) fun _ => unserved_pooled _
  refine always_then rfl (fun report => ?_) fun _ => unserved_pooled _
  refine always_then rfl (fun _ => ?_) fun _ => unserved_pooled _
  refine always_then rfl (fun _ => ?_) fun _ => unserved_pooled _
  refine always_then rfl (fun restored => ?_) fun _ => unserved_pooled _
  exact {
    toUnserved := unserved_pooled _
    marketData := rfl
    adapter := rfl
    pool := rfl
    venue := rfl
    reasons := rfl
    jammed := rfl
    configured := hconfigured.symm
    orders := ⟨rfl, rfl, rfl, report, rfl, rfl⟩
    testnetAdapter := rfl
    testnetService := rfl }

theorem bootstrap_always : (bootstrap settings).Always exec pooled fun _ w => w = pooled :=
  always_then rfl (fun _ => always_perform rfl fun r => by cases r <;> rfl) fun _ => rfl

theorem prepared_pooled (hconfigured : settings.databaseConfigured = true) (sessions : Bool) :
    Prepared settings { dbEngine := true, dbSessions := sessions } pooled where
  toUnserved := unserved_pooled {}
  marketData := rfl
  adapter := rfl
  pool := rfl
  venue := rfl
  reasons := rfl
  jammed := rfl
  configured := hconfigured.symm
  orders := ⟨rfl, rfl, rfl, rfl⟩
  testnetAdapter := rfl
  testnetService := rfl

theorem openOrderStore_always : (openOrderStore settings).Always exec {} (Starts (Prepared settings)) := by
  by_cases hconfigured : settings.databaseConfigured = true
  · rw [openOrderStore, if_pos hconfigured]
    refine always_then rfl (fun _ => ?_) fun _ => ⟨rfl, rfl, rfl⟩
    refine always_then rfl (fun reachable => ?_) fun _ => unserved_pooled {}
    cases reachable with
    | false => exact prepared_pooled settings hconfigured false
    | true =>
        refine Always.bind (Always.caught ((bootstrap_always settings).mono ?_))
        rintro r w rfl
        cases r with
        | ok accountId => exact attachOrders_always settings hconfigured accountId
        | error e =>
            cases e with
            | databaseUnavailable detail => exact prepared_pooled settings hconfigured true
            | adapter error => exact unserved_pooled {}
            | other detail => exact unserved_pooled {}
  · rw [openOrderStore, if_neg hconfigured]
    exact {
      toUnserved := ⟨rfl, rfl, rfl⟩
      marketData := rfl
      adapter := rfl
      pool := rfl
      venue := rfl
      reasons := rfl
      jammed := rfl
      configured := (Bool.eq_false_iff.mpr hconfigured).symm
      orders := ⟨rfl, rfl, rfl, rfl⟩
      testnetAdapter := rfl
      testnetService := rfl }

end

/-! ### The venue -/

/-- The process once the venue has answered these as well. -/
def Process.told (w : Process) (answers : List (String × Json)) : Process :=
  { w with venue := { w.venue with heard := w.venue.heard ++ answers } }

/-- The adapter is open, and its clock was compared. -/
structure Signing (w : Process) : Prop where
  adapter : w.stage .adapter = .opened
  clock : w.venue.offsetMs.isSome

theorem Signing.told (h : Signing w) (answers : List (String × Json)) : Signing (w.told answers) := ⟨h.1, h.2⟩

theorem Signing.allows (h : Signing w) (path : String) : w.allows (.request true path) = true := by
  simp [Process.allows, h.adapter, h.clock]

/-- What a coroutine was answered, whatever it ends in, and what it makes of it. -/
def Hears (w : Process) (post : α → List (String × Json) → Prop) (r : Except Mishap α) (w' : Process) : Prop :=
  ∃ answers, w' = w.told answers ∧ ∀ a, r = .ok a → post a answers

theorem told_told (w : Process) (a b : List (String × Json)) : (w.told a).told b = w.told (a ++ b) := by
  simp [Process.told]

theorem told_nil (w : Process) : w.told [] = w := by simp [Process.told]

theorem hears_error {post : α → List (String × Json) → Prop} (e : Mishap) : Hears w post (.error e) w :=
  ⟨[], (told_nil w).symm, fun _ h => nomatch h⟩

theorem request_always (h : Signing w) (path : String) :
    (perform (.request true path)).Always exec w (Hears w fun answer answers => answers = [(path, answer)]) := by
  refine always_perform (h.allows path) fun r => ?_
  cases r with
  | ok answer =>
      refine ⟨[(path, answer)], rfl, ?_⟩
      rintro a ⟨⟩
      rfl
  | error e => exact hears_error e

/-- One coroutine after another hears what both were answered. -/
theorem always_hears {β : Type} {c : LifeM β} {k : β → LifeM α} {first : β → List (String × Json) → Prop}
    {post : α → List (String × Json) → Prop} (h : Signing w) (hc : c.Always exec w (Hears w first))
    (hk : ∀ b answers, first b answers → ∀ w, Signing w →
      (k b).Always exec w (Hears w fun a later => post a (answers ++ later))) :
    (c >>= k).Always exec w (Hears w post) := by
  refine Always.bind (hc.mono ?_)
  rintro r _ ⟨answers, rfl, hfirst⟩
  cases r with
  | error e => exact ⟨answers, rfl, fun _ h => nomatch h⟩
  | ok b =>
      refine (hk b answers (hfirst b rfl) _ (h.told answers)).mono ?_
      rintro r _ ⟨later, rfl, hlater⟩
      exact ⟨answers ++ later, told_told w answers later, hlater⟩

section

variable [Interpreter]

theorem positionMode_always (h : Signing w) :
    positionMode.Always exec w (Hears w fun mode answers =>
      ∃ answer, answers = [(positionSideDual, answer)] ∧ modeOf answer = some mode) := by
  refine always_hears h (request_always h positionSideDual) fun answer answers hanswers w _ => ?_
  subst hanswers
  cases hmode : modeOf answer with
  | none => exact hears_error _
  | some mode =>
      refine ⟨[], (told_nil w).symm, ?_⟩
      rintro a ⟨⟩
      exact ⟨answer, rfl, hmode⟩

theorem requireOneWayMode_always (h : Signing w) :
    requireOneWayMode.Always exec w (Hears w fun _ answers =>
      ∃ answer, answers = [(positionSideDual, answer)] ∧ modeOf answer = some .oneWay) := by
  refine always_hears h (positionMode_always h) ?_
  rintro mode _ ⟨answer, rfl, hmode⟩ w _
  by_cases hway : mode = .oneWay
  · rw [if_neg (not_not_intro hway)]
    exact ⟨[], (told_nil w).symm, fun _ _ => ⟨answer, rfl, hway ▸ hmode⟩⟩
  · rw [if_pos hway]
    exact hears_error _

omit [Interpreter] in
theorem legacyAccount_always (h : Signing w) :
    legacyAccount.Always exec w (Hears w fun legacy answers =>
      answers = legacy.toList.map fun answer => (accountV2, answer)) := by
  refine Always.bind (Always.caught (always_perform (h.allows accountV2) fun r => ?_))
  cases r with
  | ok answer =>
      refine ⟨[(accountV2, answer)], rfl, ?_⟩
      rintro a ⟨⟩
      rfl
  | error e =>
      change Always exec (if e.isExchangeError then pure none else raise e) w _
      by_cases hexchange : e.isExchangeError = true
      · rw [if_pos hexchange]
        refine ⟨[], (told_nil w).symm, ?_⟩
        rintro a ⟨⟩
        rfl
      · rw [if_neg hexchange]
        exact hears_error e

/-- What the venue was heard to say when it was asked who we are. -/
def Identifies (account : VenueAccount) (answers : List (String × Json)) : Prop :=
  ∃ payload mode, ∃ legacy : Option Json,
    answers = (Lifespan.account, payload) :: (positionSideDual, mode) :: legacy.toList.map (fun answer => (accountV2, answer)) ∧
      account.canTrade = canTradeOf legacy

theorem accountIdentity_always (h : Signing w) : accountIdentity.Always exec w (Hears w Identifies) := by
  refine always_hears h (request_always h account) ?_
  rintro answer _ rfl w h
  cases answer with
  | dict payload =>
      refine always_hears h (positionMode_always h) ?_
      rintro mode _ ⟨answer, rfl, -⟩ w h
      refine always_hears h (legacyAccount_always h) ?_
      rintro legacy _ rfl w -
      cases aliasOf payload legacy with
      | error e => exact hears_error e
      | ok accountId =>
          cases balanceOf payload with
          | error e => exact hears_error e
          | ok balance =>
              refine ⟨[], (told_nil w).symm, ?_⟩
              rintro a ⟨⟩
              exact ⟨.dict payload, answer, legacy, by simp, rfl⟩
  | _ => exact hears_error _

theorem syncClock_always (hadapter : w.stage .adapter = .opened) :
    syncClock.Always exec w fun r w' => ∃ v, w' = { w with venue := v } ∧ ∀ offsetMs, r = .ok offsetMs →
      v.offsetMs.isSome ∧ ∃ time, v.heard = w.venue.heard ++ [(serverTime, time)] := by
  have hraised (e : Mishap) (v : Venue) : ∃ v', { w with venue := v } = { w with venue := v' } ∧ ∀ offsetMs : Int,
      Except.error e = .ok offsetMs → v'.offsetMs.isSome ∧ ∃ time, v'.heard = w.venue.heard ++ [(serverTime, time)] :=
    ⟨v, rfl, fun _ h => nomatch h⟩
  refine always_then (by simp [Process.allows, hadapter]) (fun answer => ?_) fun e => hraised e w.venue
  cases answer with
  | dict payload =>
      cases htime : payload.lookup "serverTime" with
      | none =>
          simp only [htime]
          exact hraised _ _
      | some time =>
          simp only [htime]
          cases time.toInt with
          | error e => exact hraised _ _
          | ok venueMs =>
              refine always_then rfl (fun now => ?_) fun e => hraised e _
              refine always_then rfl (fun _ => ?_) fun e => hraised e _
              exact ⟨_, rfl, fun _ _ => ⟨rfl, .dict payload, rfl⟩⟩
  | _ => exact hraised _ _

/-- What was heard of a venue that we may trade on as far as it was asked. -/
def Admits (account : VenueAccount) (answers : List (String × Json)) : Prop :=
  ∃ one later, answers = (positionSideDual, one) :: later ∧ modeOf one = some .oneWay ∧ Identifies account later

theorem admitted_always (h : Signing w) :
    (do requireOneWayMode; accountIdentity).Always exec w (Hears w Admits) := by
  refine always_hears h (requireOneWayMode_always h) ?_
  rintro _ _ ⟨one, rfl, hone⟩ w h
  refine (accountIdentity_always h).mono ?_
  rintro r _ ⟨later, rfl, hlater⟩
  exact ⟨later, rfl, fun account hr => ⟨one, later, rfl, hone, hlater account hr⟩⟩

/-- On the way to an adapter nothing moves but it and what the venue has answered. -/
structure Toward (w w' : Process) : Prop where
  rest : w' = { w with stage := w'.stage, venue := w'.venue }
  stage : ∀ x ≠ .adapter, w'.stage x = w.stage x

omit [Interpreter] in
theorem toward_opened (w : Process) (v : Venue) : Toward w { w.put .adapter .opened with venue := v } :=
  ⟨rfl, fun _ hx => w.stage_put_of_ne .opened hx⟩

theorem identified_always (hadapter : w.stage .adapter = .absent) (hvenue : w.venue = {}) :
    identified.Always exec w fun r w' => Toward w w' ∧ ∀ account, r = .ok account →
      Signing w' ∧ ∃ time answers, w'.venue.heard = (serverTime, time) :: answers ∧ Admits account answers := by
  refine always_then (by simp [Process.allows, hadapter]) (fun _ => ?_)
    fun e => ⟨⟨rfl, fun _ _ => rfl⟩, fun _ h => nomatch h⟩
  have hopened : (w.put .adapter .opened).stage .adapter = .opened := w.stage_put .adapter .opened
  refine Always.bind ((syncClock_always hopened).mono ?_)
  rintro r _ ⟨v, rfl, hsynced⟩
  cases r with
  | error e => exact ⟨toward_opened w v, fun _ h => nomatch h⟩
  | ok offsetMs =>
      obtain ⟨hclock, time, hheard⟩ := hsynced offsetMs rfl
      have hsigning : Signing { w.put .adapter .opened with venue := v } := ⟨hopened, hclock⟩
      refine (admitted_always hsigning).mono ?_
      rintro r _ ⟨answers, rfl, hadmits⟩
      refine ⟨toward_opened w _, fun account hr => ⟨hsigning.told answers, time, answers, ?_, hadmits account hr⟩⟩
      change v.heard ++ answers = _
      rw [hheard]
      change (w.venue.heard ++ [(serverTime, time)]) ++ answers = _
      rw [hvenue]
      rfl

/-! ### Testnet execution -/

/-- The reason that is given is the reason that there is. -/
def Justified (settings : Settings) (app : AppState) (venue : Venue) : Reason → Prop
  | .modeNotEnabled => settings.testnetTradingEnabled = false
  | .noDurableStore => settings.testnetTradingEnabled = true ∧ app.orderAccountId = none
  | .failed mishap => app.orderAccountId.isSome ∧ mishap.isExchangeError = true
  | .tradingDisabled => ∃ answer, (accountV2, answer) ∈ venue.heard ∧ canTradeOf (some answer) = some false
  | .permissionUnknown => ∀ answer, (accountV2, answer) ∈ venue.heard → canTradeOf (some answer) = none

/-- The venue was heard to be in one-way mode and to let us trade. -/
structure Trusted (venue : Venue) : Prop where
  clock : venue.offsetMs.isSome
  oneWay : ∃ answer, (positionSideDual, answer) ∈ venue.heard ∧ modeOf answer = some .oneWay
  canTrade : ∃ answer, (accountV2, answer) ∈ venue.heard ∧ canTradeOf (some answer) = some true

/-- Testnet execution is attached over what makes it safe, or there is one reason why it is not. -/
def TestnetDecided (settings : Settings) (app : AppState) (venue : Venue) (reasons : List Reason) : Prop :=
  match app.testnetService with
  | some execution =>
      settings.testnetTradingEnabled = true ∧ app.orderAccountId = some execution.accountId ∧
        app.testnetAdapter = true ∧ Trusted venue ∧ reasons = []
  | none => app.testnetAdapter = false ∧ ∃ reason, reasons = [reason] ∧ Justified settings app venue reason

/-- An adapter that is open and that the application does not have was refused as it was opened. -/
structure Ready (settings : Settings) (app : AppState) (w : Process) : Prop extends Unserved w where
  marketData : w.stage .marketData = .opened
  adapter : if app.testnetAdapter then w.stage .adapter = .opened
    else w.stage .adapter = .opened → ∃ mishap, w.reasons = [.failed mishap]
  pool : w.stage .pool = if app.dbEngine then .opened else .absent
  jammed : w.jammed = []
  configured : app.dbEngine = settings.databaseConfigured
  orders : OrdersKept app w.stores
  testnet : TestnetDecided settings app w.venue w.reasons

omit [Interpreter] in
theorem Unserved.toward (h : Unserved w) (hw : Toward w w') : Unserved w' where
  misused := by rw [hw.rest]; exact h.misused
  served := by rw [hw.rest]; exact h.served
  loop := (hw.stage .loop (by decide)).trans h.loop

section

variable {settings : Settings} {app : AppState}

theorem Prepared.without (h : Prepared settings app w) {w' : Process} (hw : Toward w w') {reason : Reason}
    (hjustified : Justified settings app w'.venue reason)
    (hadapter : w'.stage .adapter = .opened → ∃ mishap, reason = .failed mishap) :
    Ready settings app { w' with reasons := w'.reasons ++ [reason] } where
  toUnserved := ⟨(h.toUnserved.toward hw).1, (h.toUnserved.toward hw).2, (h.toUnserved.toward hw).3⟩
  marketData := (hw.stage .marketData (by decide)).trans h.marketData
  adapter := by
    rw [h.testnetAdapter]
    intro hopened
    obtain ⟨mishap, rfl⟩ := hadapter hopened
    exact ⟨mishap, by rw [hw.rest]; exact congrArg (· ++ [_]) h.reasons⟩
  pool := (hw.stage .pool (by decide)).trans h.pool
  jammed := by rw [hw.rest]; exact h.jammed
  configured := h.configured
  orders := by rw [hw.rest]; exact h.orders
  testnet := by
    unfold TestnetDecided
    rw [h.testnetService]
    exact ⟨h.testnetAdapter, reason, by rw [hw.rest]; exact congrArg (· ++ [_]) h.reasons, hjustified⟩

theorem withoutTestnet_always (h : Prepared settings app w) (hw : Toward w w') {reason : Reason}
    (hjustified : Justified settings app w'.venue reason)
    (hadapter : w'.stage .adapter = .opened → ∃ mishap, reason = .failed mishap) :
    (withoutTestnet reason app).Always exec w' (Starts (Ready settings)) :=
  always_then rfl (fun _ => h.without hw hjustified hadapter) fun _ => h.toUnserved.toward hw

/-- Of an account that is not trusted the reason is what its older endpoint said. -/
theorem justified_canTrade {account : VenueAccount} {answers : List (String × Json)} {time : Json}
    {venue : Venue} (hadmits : Admits account answers) (hheard : venue.heard = (serverTime, time) :: answers)
    (hcan : account.canTrade ≠ some true) :
    Justified settings app venue (if account.canTrade = some false then .tradingDisabled else .permissionUnknown) := by
  obtain ⟨one, _, rfl, _, payload, mode, legacy, rfl, htrade⟩ := hadmits
  have hmem (answer : Json) : (accountV2, answer) ∈ venue.heard ↔ legacy = some answer := by
    rw [hheard]
    cases legacy <;> simp [accountV2, serverTime, positionSideDual, Lifespan.account, eq_comm]
  by_cases hdenied : account.canTrade = some false
  · rw [if_pos hdenied]
    cases legacy with
    | none => exact absurd (htrade.symm.trans hdenied) (by simp [canTradeOf])
    | some answer => exact ⟨answer, (hmem answer).mpr rfl, htrade.symm.trans hdenied⟩
  · rw [if_neg hdenied]
    intro answer hanswer
    rw [← (hmem answer).mp hanswer, ← htrade]
    rcases hvalue : account.canTrade with _ | _ | _
    · rfl
    · exact absurd hvalue hdenied
    · exact absurd hvalue hcan

theorem trusted_of_admits {account : VenueAccount} {answers : List (String × Json)} {time : Json} (h : Signing w)
    (hadmits : Admits account answers) (hheard : w.venue.heard = (serverTime, time) :: answers)
    (hcan : account.canTrade = some true) : Trusted w.venue := by
  obtain ⟨one, _, rfl, hone, payload, mode, legacy, rfl, htrade⟩ := hadmits
  refine ⟨h.clock, ⟨one, by simp [hheard], hone⟩, ?_⟩
  cases legacy with
  | none => exact absurd (htrade.symm.trans hcan) (by simp [canTradeOf])
  | some answer => exact ⟨answer, by simp [hheard], htrade.symm.trans hcan⟩

omit [Interpreter] in
theorem Toward.put (h : Toward w w') (stage : Stage) : Toward w (w'.put .adapter stage) where
  rest := by
    rw [h.rest]
    rfl
  stage := fun x hx => (w'.stage_put_of_ne stage hx).trans (h.stage x hx)

theorem openTestnetExecution_always (h : Prepared settings app w) :
    (openTestnetExecution settings app).Always exec w (Starts (Ready settings)) := by
  have hstays : Toward w w := ⟨rfl, fun _ _ => rfl⟩
  have habsent : ¬ w.stage .adapter = .opened := by simp [h.adapter]
  unfold openTestnetExecution
  by_cases henabled : settings.testnetTradingEnabled = true
  · rw [if_neg (not_not_intro henabled)]
    cases haccount : app.orderAccountId with
    | none => exact withoutTestnet_always h hstays ⟨henabled, haccount⟩ fun ho => absurd ho habsent
    | some accountId =>
        refine Always.bind (Always.caught ((identified_always h.adapter h.venue).mono ?_))
        rintro r w' ⟨hw, hidentified⟩
        cases r with
        | error e =>
            change Always exec (if e.isExchangeError then withoutTestnet (.failed e) app else raise e) w' _
            by_cases hexchange : e.isExchangeError = true
            · rw [if_pos hexchange]
              exact withoutTestnet_always h hw ⟨by simp [haccount], hexchange⟩ fun _ => ⟨e, rfl⟩
            · rw [if_neg hexchange]
              exact h.toUnserved.toward hw
        | ok account =>
            obtain ⟨hsigning, time, answers, hheard, hadmits⟩ := hidentified account rfl
            change Always exec (if account.canTrade = some true then _ else _) w' _
            by_cases hcan : account.canTrade = some true
            · rw [if_pos hcan]
              refine always_then rfl (fun sessionStart => ?_) fun _ => h.toUnserved.toward hw
              exact {
                toUnserved := h.toUnserved.toward hw
                marketData := (hw.stage .marketData (by decide)).trans h.marketData
                adapter := hsigning.adapter
                pool := (hw.stage .pool (by decide)).trans h.pool
                jammed := by rw [hw.rest]; exact h.jammed
                configured := h.configured
                orders := by
                  have horders := h.orders
                  rw [OrdersKept, haccount] at horders
                  rw [hw.rest]
                  exact horders
                testnet := ⟨henabled, rfl, rfl, trusted_of_admits hsigning hadmits hheard hcan, by
                  rw [hw.rest]; exact h.reasons⟩ }
            · rw [if_neg hcan]
              have hunserved := h.toUnserved.toward (hw.put .closed)
              refine always_then rfl (fun _ => ?_) fun _ => h.toUnserved.toward hw
              refine always_then ?_ (fun _ => ?_) fun _ => ?_
              · exact allows_close hsigning.adapter (.inr (h.toUnserved.toward hw).not_running)
              · refine h.without (hw.put .closed) (justified_canTrade hadmits hheard hcan) fun ho => ?_
                exact absurd ((w'.stage_put .adapter .closed).symm.trans ho) (by decide)
              · exact ⟨hunserved.misused, hunserved.served, hunserved.loop⟩
  · rw [if_pos henabled]
    exact withoutTestnet_always h hstays (Bool.eq_false_iff.mpr henabled) fun ho => absurd ho habsent

end

/-! ### Closing -/

/-- What was to be closed is closed, unless one of them raised. -/
structure Shut (resources : List Resource) (w w' : Process) : Prop where
  rest : w' = { w with stage := w'.stage, jammed := w'.jammed }
  stage : ∀ x ∉ resources, w'.stage x = w.stage x
  closed : w'.jammed = w.jammed → ∀ x ∈ resources, w'.stage x = .closed

omit [Interpreter] in
/-- The loop is the first of them, or it is not running. -/
theorem closeAll_always {resources : List Resource} (hnodup : resources.Nodup)
    (hopened : ∀ x ∈ resources, w.stage x = .opened)
    (hloop : w.stage .loop ≠ .opened ∨ resources.head? = some .loop) :
    (closeAll resources).Always exec w fun _ w' => Shut resources w w' := by
  induction resources generalizing w with
  | nil => exact ⟨rfl, fun _ _ => rfl, fun _ => List.forall_mem_nil _⟩
  | cons resource rest ih =>
      obtain ⟨hnew, hnodup⟩ := List.nodup_cons.mp hnodup
      refine always_then (allows_close (hopened resource List.mem_cons_self) ?_) (fun _ => ?_) fun e => ?_
      · rcases hloop with hloop | hhead
        · exact .inr hloop
        · exact .inl (Option.some.inj hhead)
      · have hother (x : Resource) (hx : x ∈ rest) : x ≠ resource := fun h => hnew (h ▸ hx)
        have hstopped : (w.put resource .closed).stage .loop ≠ .opened := by
          by_cases heq : Resource.loop = resource
          · rw [← heq, w.stage_put]
            decide
          · rw [w.stage_put_of_ne .closed heq]
            exact hloop.resolve_right fun hhead => heq (Option.some.inj hhead).symm
        refine (ih hnodup (fun x hx => (w.stage_put_of_ne .closed (hother x hx)).trans
          (hopened x (List.mem_cons_of_mem resource hx))) (.inl hstopped)).mono ?_
        rintro _ w' ⟨hrest, hstage, hclosed⟩
        refine ⟨hrest, fun x hx => ?_, fun hjammed x hx => ?_⟩
        · obtain ⟨hne, hlater⟩ := List.ne_and_not_mem_of_not_mem_cons hx
          exact (hstage x hlater).trans (w.stage_put_of_ne .closed hne)
        · rcases List.mem_cons.mp hx with rfl | hx
          · exact (hstage x hnew).trans (w.stage_put x .closed)
          · exact hclosed hjammed x hx
      · refine ⟨rfl, fun x hx => w.stage_put_of_ne .closed (List.ne_and_not_mem_of_not_mem_cons hx).1, fun hjammed => ?_⟩
        exact absurd (List.append_right_eq_self.mp hjammed) (List.cons_ne_nil _ _)

/-! ### The whole of it -/

/-- What the process has done by its end, if it ever served. An adapter that the opening was refused with
is closed by nobody. -/
structure Ended (settings : Settings) (app : AppState) (w : Process) : Prop where
  served : w.served = [app]
  configured : app.dbEngine = settings.databaseConfigured
  orders : OrdersKept app w.stores
  testnet : TestnetDecided settings app w.venue w.reasons
  released : w.jammed = [] → ∀ x, w.stage x = .opened → x = .adapter ∧ ∃ mishap, w.reasons = [.failed mishap]

omit [Interpreter] in
theorem nodup_closers (app : AppState) : app.closers.Nodup := by
  unfold AppState.closers
  cases app.testnetAdapter <;> cases app.dbEngine <;> decide

/-- A ready process, once its loop runs and it has served. -/
def Process.serving (w : Process) (app : AppState) : Process :=
  { w.put .loop .opened with served := w.served ++ [app] }

/-- All that the application has is open where it is ready, once its loop runs. -/
theorem Ready.opened (h : Ready settings app w) : ∀ x ∈ app.closers, (w.put .loop .opened).stage x = .opened := by
  intro x hx
  cases x with
  | loop => exact w.stage_put .loop .opened
  | marketData => exact (w.stage_put_of_ne .opened (by decide)).trans h.marketData
  | adapter =>
      have hhas : app.testnetAdapter = true := by simpa [AppState.closers] using hx
      have hadapter := h.adapter
      rw [if_pos hhas] at hadapter
      exact (w.stage_put_of_ne .opened (by decide)).trans hadapter
  | pool =>
      have hhas : app.dbEngine = true := by simpa [AppState.closers] using hx
      exact (w.stage_put_of_ne .opened (by decide)).trans (h.pool.trans (if_pos hhas))

theorem Ready.allows_serve (h : Ready settings app w) : (w.put .loop .opened).allows (.serve app) = true := by
  have hloop := h.opened .loop (by simp [AppState.closers])
  have hmarketData := h.opened .marketData (by simp [AppState.closers])
  have hadapter (hhas : app.testnetAdapter = true) := h.opened .adapter (by simp [AppState.closers, hhas])
  have hpool (hhas : app.dbEngine = true) := h.opened .pool (by simp [AppState.closers, hhas])
  unfold Process.allows
  simp only [hloop, hmarketData]
  cases hhas : app.testnetAdapter <;> cases hengine : app.dbEngine <;> simp [hadapter, hpool, hhas, hengine]

/-- Of a ready process that has served, and closed what the application has. -/
theorem Ready.ended (h : Ready settings app w)
    (hshut : Shut app.closers (w.serving app) w') : Ended settings app w' where
  served := by
    rw [hshut.rest]
    exact congrArg (· ++ [app]) h.served
  configured := h.configured
  orders := by
    rw [hshut.rest]
    exact h.orders
  testnet := by
    rw [hshut.rest]
    exact h.testnet
  released := by
    intro hjammed x hx
    have hstays : x ∉ app.closers := fun hmem =>
      absurd ((hshut.closed (hjammed.trans h.jammed.symm) x hmem).symm.trans hx) (by decide)
    have hbefore : (w.put .loop .opened).stage x = .opened := (hshut.stage x hstays).symm.trans hx
    cases x with
    | loop => exact absurd (by simp [AppState.closers]) hstays
    | marketData => exact absurd (by simp [AppState.closers]) hstays
    | adapter =>
        have hlacks : ¬ app.testnetAdapter = true := fun hhas => hstays (by simp [AppState.closers, hhas])
        have hadapter := h.adapter
        rw [if_neg hlacks] at hadapter
        obtain ⟨mishap, hreasons⟩ := hadapter ((w.stage_put_of_ne .opened (by decide)).symm.trans hbefore)
        exact ⟨rfl, mishap, by rw [hshut.rest]; exact hreasons⟩
    | pool =>
        have hlacks : ¬ app.dbEngine = true := fun hhas => hstays (by simp [AppState.closers, hhas])
        have hpool : w.stage .pool = .opened := (w.stage_put_of_ne .opened (by decide)).symm.trans hbefore
        rw [h.pool, if_neg hlacks] at hpool
        exact absurd hpool (by decide)

theorem lifespan_always : (lifespan settings).Always exec {} fun r w =>
    w.misused = false ∧ (w.served = [] ∧ w.stage .loop = .absent ∧ (∃ e, r = .error e) ∨ ∃ app, Ended settings app w) := by
  have hraised {w : Process} (h : Unserved w) (e : Mishap) : w.misused = false ∧
      (w.served = [] ∧ w.stage .loop = .absent ∧ (∃ e', Except.error e = Except.error (α := Unit) e') ∨
        ∃ app, Ended settings app w) := ⟨h.misused, .inl ⟨h.served, h.loop, e, rfl⟩⟩
  refine Always.bind ((openOrderStore_always settings).mono ?_)
  rintro (e | app) w hprepared
  · exact hraised hprepared e
  refine Always.bind ((openTestnetExecution_always hprepared).mono ?_)
  rintro (e | app) w hready
  · exact hraised hready e
  refine always_then (by simp [Process.allows, hready.loop]) (fun _ => ?_) fun e => hraised hready.toUnserved e
  refine Always.bind (Always.caught (always_perform hready.allows_serve fun r => ?_))
  have hserved : (w.moved .startLoop (.ok ())).moved (.serve app) r = w.serving app := by cases r <;> rfl
  change Always exec (closeAll app.closers >>= fun _ => finished r) _ _
  rw [hserved]
  refine Always.bind ((closeAll_always (w := w.serving app) (nodup_closers app) hready.opened (.inr rfl)).mono ?_)
  rintro ended w' hshut
  have hended : w'.misused = false ∧ ∃ app, Ended settings app w' := by
    refine ⟨?_, app, hready.ended hshut⟩
    rw [hshut.rest]
    exact hready.misused
  cases ended with
  | error e => exact hended.imp_right .inr
  | ok _ => cases r <;> exact hended.imp_right .inr

end

def exampleSettings : Settings := ⟨true, true, 10000⟩

/-- All is well with the database and with the venue. -/
def admitting : {β : Type} → LifeEffect β → Except Mishap β
  | _, .buildEngine | _, .bindOrderEngine _ | _, .bindSnapshotStore _ | _, .openAdapter | _, .offsetClock _
  | _, .unavailable _ | _, .startLoop | _, .serve _ | _, .close _ => .ok ()
  | _, .checkConnectivity => .ok true
  | _, .ensureOwner => .ok "owner"
  | _, .ensureAccount _ _ => .ok "account"
  | _, .recover _ _ => .ok ⟨true, 0, [], [], [], []⟩
  | _, .restore => .ok false
  | _, .request _ path =>
      .ok (.dict (if path = serverTime then [("serverTime", .int 0)]
        else if path = positionSideDual then [("dualSidePosition", .bool false)]
        else [("canTrade", .bool true)]))
  | _, .timestampMs => .ok 0
  | _, .utcnow => .ok 0

def exampleRun : Except Mishap Unit × Process :=
  (@lifespan exampleSettings VenueAnswers.referenceInterpreter).interp (fun f w => (admitting f, w.after f (admitting f))) {}

end Aetheris.LifespanRuns
