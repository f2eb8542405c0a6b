import Aetheris.Lib.Interleaving
import Aetheris.PaperAccounts
import Aetheris.PaperService
import Aetheris.RiskEnvelope

namespace Aetheris.PaperWorld

open Lib Coroutine Money Clock Enums RiskEngine OrderIdentity PaperRecords PaperEngine PaperRuns PaperAccounts
  PaperService

/-- The account, the clock, the write lock and the entry times of the process. -/
structure World where
  repository : Repository
  clock : Timestamp
  locked : Bool := false
  entries : Dict String Timestamp := .empty

namespace World

def hold (w : World) (locked : Bool) : World := { w with locked := locked }

def setClock (w : World) (now : Timestamp) : World := { w with clock := now }

def keep (w : World) (r : Repository) : World := { w with repository := r }

def note (w : World) (symbol : String) (now : Timestamp) : World := { w with entries := w.entries.set symbol now }

end World

variable {α : Type}

/-- What an engine call answers with, as the service sees it. -/
def answered : Except PaperPricing.PaperError α → Except ServiceError α
  | .ok a => .ok a
  | .error e => .error (.paper e)

theorem answered_ok {x : Except PaperPricing.PaperError α} {a : α} (h : .ok a = answered x) : x = .ok a := by
  cases x with
  | ok b => rw [Except.ok.inj h]
  | error e => cases h

section Semantics

variable [Runtime]

def exec (config : PaperEngineConfig) : Semantics Effect ServiceError World
  | _, .acquire, w, r, w' =>
      (w.locked = false ∧ r = .ok () ∧ w' = w.hold true) ∨ (r = .error .cancelled ∧ w' = w)
  | _, .release, w, r, w' => r = .ok () ∧ w' = w.hold false
  | _, .utcnow, w, r, w' => ∃ now, w.clock ≤ now ∧ r = .ok now ∧ w' = w.setClock now
  | _, .openSymbols, w, r, w' => r = .ok w.repository.state.positions.keys ∧ w' = w
  | _, .emergency, w, r, w' =>
      r = .ok (w.repository.state.emergencyStopped, w.repository.state.emergencyReason) ∧ w' = w
  | _, .lastEntryAt symbol, w, r, w' => r = .ok (w.entries.get? symbol) ∧ w' = w
  | _, .noteEntry symbol now, w, r, w' => r = .ok () ∧ w' = w.note symbol now
  | _, .call op, w, r, w' =>
      r = answered ((op.answer config).run w.repository).1 ∧ w' = w.keep (after config w.repository op)
  | _, .reset now startingBalance, w, r, w' =>
      r = answered ((reset config now startingBalance).run w.repository).1 ∧
        w' = w.keep ((reset config now startingBalance).run w.repository).2
  -- what the venue and the databases answer is theirs, and any of these waits may be cancelled
  | _, _, w, _, w' => w' = w

/-- The calls the service offers. -/
inductive ServiceCall
  | getAccount
  | positionIntelligence (symbol : String)
  | tick
  | submitOrder (request : SubmitOrderRequest) (requestedLeverage : Decimal) (origin : String)
  | closePosition (symbol : String) (reason : PaperExitReason)
  | reset (startingBalance : Option Decimal)
  | setEmergencyStop (engaged : Bool) (reason : String)

def serve (service : PaperTradingService) : ServiceCall → ServiceM Unit
  | .getAccount => do let _ ← service.getAccount
  | .positionIntelligence symbol => do let _ ← service.positionIntelligence symbol
  | .tick => do let _ ← service.tick
  | .submitOrder request requestedLeverage origin => do let _ ← service.submitOrder request requestedLeverage origin
  | .closePosition symbol reason => do let _ ← service.closePosition symbol reason
  | .reset startingBalance => do let _ ← service.reset startingBalance
  | .setEmergencyStop engaged reason => do let _ ← service.setEmergencyStop engaged reason

def Serves (service : PaperTradingService) (c : ServiceM Unit) : Prop := ∃ call, c = serve service call

/-- The account changes by engine calls and resets only. -/
theorem exec_repository {config : PaperEngineConfig} {β : Type} {f : Effect β} {w w' : World}
    {r : Except ServiceError β} (hx : exec config f w r w') :
    w'.repository = w.repository ∨
      (∃ op, f.operation? = some op ∧ w'.repository = after config w.repository op) ∨
      ∃ startingBalance now, w'.repository =
        after config (opening startingBalance now w.repository.durability) (.snapshot now .empty) := by
  cases f with
  | call op =>
      obtain ⟨_, rfl⟩ := hx
      exact .inr (.inl ⟨op, rfl, rfl⟩)
  | reset now startingBalance =>
      obtain ⟨_, rfl⟩ := hx
      exact .inr (.inr ⟨startingBalance.getD config.startingBalance, now, reset_eq_snapshot now startingBalance⟩)
  | acquire => exact .inl (by rcases hx with ⟨_, _, rfl⟩ | ⟨_, rfl⟩ <;> rfl)
  | utcnow =>
      obtain ⟨_, _, _, rfl⟩ := hx
      exact .inl rfl
  | getTicker | getSymbol | volatility | reconciliationPending | save =>
      obtain rfl := hx
      exact .inl rfl
  | _ =>
      obtain ⟨_, rfl⟩ := hx
      exact .inl rfl

theorem serve_issues {service : PaperTradingService} {c : ServiceM Unit} (h : Serves service c) : Issues service c := by
  obtain ⟨call, rfl⟩ := h
  cases call with
  | getAccount => exact performs_bind issues_getAccount fun _ => trivial
  | positionIntelligence symbol =>
      exact performs_bind (performs_bind issues_getAccount fun _ => trivial) fun _ => trivial
  | tick => exact performs_bind issues_tick fun _ => trivial
  | submitOrder request requestedLeverage origin => exact performs_bind (issues_submitOrder _ _ _) fun _ => trivial
  | closePosition symbol reason => exact performs_bind (issues_closePosition _ _) fun _ => trivial
  | reset startingBalance => exact performs_bind (issues_reset _) fun _ => trivial
  | setEmergencyStop engaged reason => exact performs_bind (issues_setEmergencyStop _ _) fun _ => trivial

end Semantics

/-- A process that has just started, with a fresh account. -/
def booted (startingBalance : Decimal) (now : Timestamp) (durability : Durability) : World where
  repository := opening startingBalance now durability
  clock := now

/-- What a venue shows of its market at one moment. -/
structure Venue where
  now : Timestamp
  ticker : Ticker
  listing : Listing
  atrPercent : Decimal

variable [Runtime] {config : PaperEngineConfig}

/-- A world where the venue answers at once and nothing is cancelled but a wait for the lock. -/
def Venue.answers (config : PaperEngineConfig) (venue : Venue) :
    {β : Type} → Effect β → World → Except ServiceError β × World
  | _, .acquire, w => if w.locked then (.error .cancelled, w) else (.ok (), w.hold true)
  | _, .release, w => (.ok (), w.hold false)
  | _, .utcnow, w => (.ok (max w.clock venue.now), w.setClock (max w.clock venue.now))
  | _, .openSymbols, w => (.ok w.repository.state.positions.keys, w)
  | _, .emergency, w => (.ok (w.repository.state.emergencyStopped, w.repository.state.emergencyReason), w)
  | _, .lastEntryAt symbol, w => (.ok (w.entries.get? symbol), w)
  | _, .noteEntry symbol now, w => (.ok (), w.note symbol now)
  | _, .call op, w => (answered ((op.answer config).run w.repository).1, w.keep (after config w.repository op))
  | _, .reset now startingBalance, w =>
      (answered ((PaperEngine.reset config now startingBalance).run w.repository).1,
        w.keep ((PaperEngine.reset config now startingBalance).run w.repository).2)
  | _, .getTicker _, w =>
      (.ok { value := some venue.ticker, status := .ok, source := "venue", ageSeconds := some 1,
             value_status := rfl }, w)
  | _, .getSymbol _, w => (.ok venue.listing, w)
  | _, .volatility _ _, w => (.ok { status := .measured, atrPercent := some venue.atrPercent }, w)
  | _, .reconciliationPending, w => (.ok ⟨0, ""⟩, w)
  | _, .save, w => (.ok (), w)

theorem exec_answers (venue : Venue) {β : Type} (f : Effect β) (w : World) :
    exec config f w (venue.answers config f w).1 (venue.answers config f w).2 := by
  cases f with
  | acquire =>
      by_cases h : w.locked = true
      · exact .inr (by simp [Venue.answers, h])
      · exact .inl (by simp [Venue.answers, h])
  | utcnow => exact ⟨max w.clock venue.now, le_max_left _ _, rfl, rfl⟩
  | getTicker | getSymbol | volatility | reconciliationPending | save => rfl
  | _ => exact ⟨rfl, rfl⟩

def exampleService : PaperTradingService where
  exchangeName := "venue"
  paperEnabled := true
  orders := false
  snapshots := false
  maxOpenPositions := 3
  maxPositionNotional := 1000
  maxPortfolioExposure := 3000
  maxLeverage := 10
  maxDataAgeSeconds := 10
  entryCooldownSeconds := 60
  manualEntryCooldownSeconds := 0
  maxAtrPercent := 5

/-- A market that is quoted at a bid, and one above it. -/
def quoted (now : Timestamp) (bid : Decimal) : Venue where
  now := now
  ticker := { lastPrice := bid + 1, bidPrice := some bid, askPrice := some (bid + 1) }
  listing := { filters := RiskEnvelope.exampleFilters, maxLeverage := some 20 }
  atrPercent := 1

def exampleOrder (symbol : String) : ServiceCall :=
  .submitOrder { symbol := symbol, side := .buy, margin := some 10, stopLossPercent := some 2 } 3 "manual"

end Aetheris.PaperWorld
