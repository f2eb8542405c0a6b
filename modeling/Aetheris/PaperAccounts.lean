import Aetheris.PaperConservation
import Aetheris.PaperRuns

namespace Aetheris.PaperAccounts

open Lib Mutation Money Clock Enums Leverage RiskEngine OrderIdentity PaperRecords PaperEngine PaperLedger
  PaperConservation PaperRefinement PaperRuns

section Openings

variable {startingBalance : Decimal} {now : Timestamp} {durability : Durability}

theorem keyed_opening : Keyed (ledger (opening startingBalance now durability)) := fun _ he => nomatch he

theorem balanced_opening : Balanced (ledger (opening startingBalance now durability)) where
  places_pnl := FixedPoint.grid_zero
  places_fees := FixedPoint.grid_zero
  places_entry _ ht := nomatch ht
  pnl := (sub_self 0).symm
  fees := (add_zero 0).symm
  trades _ ht := nomatch ht
  session _ hs := nomatch hs

theorem logged_opening : Logged (ledger (opening startingBalance now durability)) := ⟨[], rfl⟩

theorem cash_opening : Cash (ledger (opening startingBalance now durability)) where
  places_pnl := FixedPoint.grid_zero
  held _ := ⟨rfl, rfl, rfl⟩
  rounded h := absurd (fun _ _ he => nomatch he) h
  conserved _ := (add_zero startingBalance).symm

end Openings

variable [Runtime] {config : PaperEngineConfig} {r : Repository}

/-- What every move preserves holds of an account after any calls of its engine. -/
theorem run_preserves {I : Ledger → Prop}
    (hI : ∀ today l m, Move config today (fun _ _ => True) l m → I l → I m)
    (hkeyed : Keyed (ledger r)) (h : I (ledger r)) (ops : List Operation) : I (ledger (run config r ops)) :=
  (run_invariant hI (along_unrestricted r ops) ⟨hkeyed, h⟩).2

/-- The books of an account balance after any calls: what was realised is what
every trade netted, those the bounded log forgot included, less the entry fees
of what is open, and the day's figures are what changed since its session began. -/
theorem books_balance (config : PaperEngineConfig) (startingBalance : Decimal) (now : Timestamp)
    (durability : Durability) (ops : List Operation) :
    let r := run config (opening startingBalance now durability) ops
    r.state.realizedPnl = netClosed r.journal - r.state.positions.total (fun p => p.entryFee) ∧
      r.state.totalFees = feesClosed r.journal + r.state.positions.total (fun p => p.entryFee) ∧
      (∀ trade ∈ tradesOf r.journal, trade.netPnl = trade.grossPnl - trade.fees) ∧
      (∃ evicted, tradesOf r.journal = evicted ++ r.state.trades) ∧
      ∀ s ∈ r.state.session, ∃ pnl fees, lastStart r.journal = some (s.sessionDate, pnl, fees) ∧
        s.realizedPnl = r.state.realizedPnl - pnl ∧ s.fees = r.state.totalFees - fees := by
  intro r
  have hbalanced : Balanced (ledger r) :=
    run_preserves (fun _ _ _ hm => balanced_move hm) keyed_opening balanced_opening ops
  have hlogged : Logged (ledger r) :=
    run_preserves (fun _ _ _ hm => logged_move hm) keyed_opening logged_opening ops
  have hopen : openFees (ledger r).positions = r.state.positions.total (fun p => p.entryFee) :=
    Dict.total_map MutablePosition.toEntryTerms EntryTerms.entryFee r.state.positions
  refine ⟨?_, ?_, hbalanced.trades, hlogged, ?_⟩
  · rw [← hopen]
    exact hbalanced.pnl
  · rw [← hopen]
    exact hbalanced.fees
  · intro s hs
    have hline : line s ∈ (ledger r).session := Option.mem_map_of_mem line hs
    obtain ⟨pnl, fees, hstart, _, _, hpnl, hfees⟩ := hbalanced.session (line s) hline
    exact ⟨pnl, fees, hstart, hpnl, hfees⟩

/-- What an account was started with, at most eight decimals or not, it keeps. -/
structure Funded (startingBalance : Decimal) (l : Ledger) : Prop where
  cash : Cash l
  started : l.startingBalance = startingBalance

omit [Runtime] in
theorem funded_move {today : Int} {admits : Ledger → EntryTerms → Prop} {startingBalance : Decimal} {l m : Ledger}
    (hm : Move config today admits l m) (h : Funded startingBalance l) : Funded startingBalance m := by
  refine ⟨cash_move hm h.cash, Eq.trans ?_ h.started⟩
  cases hm <;> rfl

/-- Discarding an account leaves the new one as its first look does. -/
theorem reset_eq_snapshot (now : Timestamp) (startingBalance : Option Decimal) :
    ((reset config now startingBalance).run r).2 =
      after config (opening (startingBalance.getD config.startingBalance) now r.durability) (.snapshot now .empty) :=
  rfl

omit [Runtime] in
theorem terms_move {today : Int} {P : EntryTerms → Prop} {l m : Ledger} (hm : Move config today (fun _ t => P t) l m)
    (h : ∀ t ∈ l.positions.values, P t) : ∀ t ∈ m.positions.values, P t := by
  cases hm with
  | start _ => exact h
  | enter _ _ _ hfree _ hadmits =>
      intro t ht
      rcases Dict.mem_values_set hfree ht with rfl | ht
      · exact hadmits
      · exact h t ht
  | leave _ _ _ _ _ _ _ => exact fun t ht => h t (Dict.mem_values_erase ht)

/-- A call of the engine: one that keeps the account, or the one that discards it. -/
inductive Call
  | keep (op : Operation)
  | reset (now : Timestamp) (startingBalance : Option Decimal)

def Call.leaves (config : PaperEngineConfig) (r : Repository) : Call → Repository
  | keep op => after config r op
  | reset now startingBalance => ((PaperEngine.reset config now startingBalance).run r).2

def runCalls (config : PaperEngineConfig) (r : Repository) (calls : List Call) : Repository :=
  calls.foldl (Call.leaves config) r

/-- What is asked of the calls that keep the account. -/
def Call.Meets (admits : Repository → Operation → Prop) (r : Repository) : Call → Prop
  | keep op => admits r op
  | reset _ _ => True

/-- Whatever calls lead to, discarded accounts among them, a new account comes to
without being discarded, and under the same conditions. -/
theorem runCalls_reached {admits : Repository → Operation → Prop}
    (hlook : ∀ r now marks, admits r (.snapshot now marks))
    {startingBalance : Decimal} {now : Timestamp} {durability : Durability} {calls : List Call}
    (h : Along (Call.leaves config) (Call.Meets admits) (opening startingBalance now durability) calls) :
    ∃ startingBalance' now' durability' ops,
      Along (after config) admits (opening startingBalance' now' durability') ops ∧
      runCalls config (opening startingBalance now durability) calls =
        run config (opening startingBalance' now' durability') ops := by
  refine foldl_invariant (I := fun r => ∃ startingBalance' now' durability' ops,
    Along (after config) admits (opening startingBalance' now' durability') ops ∧
      r = run config (opening startingBalance' now' durability') ops) ?_ h
    ⟨startingBalance, now, durability, [], trivial, rfl⟩
  rintro r call ⟨startingBalance', now', durability', ops, halong, rfl⟩ hcall
  cases call with
  | keep op =>
      refine ⟨startingBalance', now', durability', ops ++ [op], along_concat halong hcall, ?_⟩
      change _ = (ops ++ [op]).foldl (after config) _
      rw [List.foldl_append]
      rfl
  | reset now'' startingBalance'' =>
      let r := run config (opening startingBalance' now' durability') ops
      refine ⟨startingBalance''.getD config.startingBalance, now'', r.durability, [.snapshot now'' .empty], ?_, ?_⟩
      · exact ⟨hlook _ _ _, trivial⟩
      · exact reset_eq_snapshot now'' startingBalance''

/-- What every move of a ledger keeps holds after any calls, of the account they come to. -/
theorem calls_invariant {I : Ledger → Prop} {admits : Ledger → EntryTerms → Prop}
    (hI : ∀ today l m, Move config today admits l m → I l → I m)
    (hadmitted : ∀ r (op : Operation), op.Admitted admits config r)
    (hopening : ∀ startingBalance now durability, I (ledger (opening startingBalance now durability)))
    (startingBalance : Decimal) (now : Timestamp) (durability : Durability) (calls : List Call) :
    let r := runCalls config (opening startingBalance now durability) calls
    Keyed (ledger r) ∧ I (ledger r) := by
  intro r
  have halong : Along (Call.leaves config) (Call.Meets fun _ _ => True) (opening startingBalance now durability) calls :=
    along_of_forall (fun call _ _ => by cases call <;> trivial) _
  obtain ⟨startingBalance', now', durability', ops, _, hr⟩ := runCalls_reached (fun _ _ _ => trivial) halong
  rw [show r = _ from hr]
  exact run_invariant hI (along_of_forall (fun _ _ _ => hadmitted _ _) _) ⟨keyed_opening, hopening _ _ _⟩

/-- What holds of the terms of every entry that is let through holds of every position that is open. -/
theorem terms_run {P : EntryTerms → Prop}
    (hadmitted : ∀ r (op : Operation), op.Admitted (fun _ t => P t) config r)
    (startingBalance : Decimal) (now : Timestamp) (durability : Durability) (calls : List Call) :
    ∀ t ∈ (ledger (runCalls config (opening startingBalance now durability) calls)).positions.values, P t :=
  (calls_invariant (I := fun l => ∀ t ∈ l.positions.values, P t) (fun _ _ _ hm h => terms_move hm h) hadmitted
    (fun _ _ _ _ h => nomatch h) startingBalance now durability calls).2

omit [Runtime] in
theorem mem_terms {p : MutablePosition} (hp : p ∈ r.state.positions.values) :
    p.toEntryTerms ∈ (ledger r).positions.values := by
  change p.toEntryTerms ∈ (r.state.positions.map _).values
  rw [Dict.values_map]
  exact List.mem_map_of_mem hp

/-- The engine's one invariant: what is held is what was there plus what was realised. -/
def Conserved (r : Repository) : Prop := r.state.balance = r.state.startingBalance + r.state.realizedPnl

instance (r : Repository) : Decidable (Conserved r) := inferInstanceAs (Decidable (_ = _))

theorem conserved_iff_of_opening (startingBalance : Decimal) (now : Timestamp) (durability : Durability)
    (ops : List Operation) :
    Conserved (run config (opening startingBalance now durability) ops) ↔
      EightPlaces startingBalance ∨ Untouched (run config (opening startingBalance now durability) ops).journal := by
  have hfunded : Funded startingBalance (ledger (run config (opening startingBalance now durability) ops)) :=
    run_preserves (fun _ _ _ hm => funded_move hm) keyed_opening ⟨cash_opening, rfl⟩ ops
  have hiff := hfunded.cash.balance_eq_iff
  rw [hfunded.started] at hiff
  rw [Conserved, show (run config (opening startingBalance now durability) ops).state.startingBalance =
    startingBalance from hfunded.started]
  exact hiff

/-- From a new account or a discarded one, in every state: the invariant is kept
exactly where the starting balance has at most eight decimals or nothing was
ever opened. -/
theorem conserved_iff (config : PaperEngineConfig) (startingBalance : Decimal) (now : Timestamp)
    (durability : Durability) (before : Repository) (ops : List Operation) :
    let r := run config (opening startingBalance now durability) ops
    let again := run config ((reset config now (some startingBalance)).run before).2 ops
    (Conserved r ↔ EightPlaces startingBalance ∨ Untouched r.journal) ∧
      (Conserved again ↔ EightPlaces startingBalance ∨ Untouched again.journal) := by
  intro r again
  refine ⟨conserved_iff_of_opening startingBalance now durability ops, ?_⟩
  have hagain : again = run config (opening startingBalance now before.durability) (.snapshot now .empty :: ops) := by
    change run config _ ops = _
    rw [reset_eq_snapshot]
    rfl
  rw [hagain]
  exact conserved_iff_of_opening startingBalance now before.durability _

def exampleConfig : PaperEngineConfig where
  startingBalance := 1000
  dailyProfitTarget := 10
  dailyLossLimit := -1
  maxOpenPositions := 3
  maxPositionNotional := 1000
  maxPortfolioExposure := 3000
  maxDataAgeSeconds := 10
  takerFeeBps := 100

def exampleMark : MarkPrice where
  symbol := "BTCUSDT"
  status := .ok
  source := "venue"
  lastPrice := some 100
  bidPrice := some 99
  askPrice := some 100
  ageSeconds := some 1

def exampleDecision : LeverageDecision where
  approvedLeverage := some 1
  outcome := .approved
  reason := .approvedInFull
  detail := "1x"

/-- A market order for so much margin, bought in a moment of the first day. -/
def exampleBuy (symbol : String) (margin : Decimal) : Operation :=
  .submitOrder { symbol := symbol, side := .buy, margin := some margin, clientOrderId := some symbol } 0 exampleMark
    none exampleDecision true .empty none [] none

/-- Nine decimals to start with, and the first fee rounds the last one away. -/
def nineDecimals : Decimal := 1000 + 1 / 1000000000

omit [Runtime] in
theorem rounded_by_first_fee : ¬ ∀ (config : PaperEngineConfig) (startingBalance : Decimal) (now : Timestamp)
    (durability : Durability) (ops : List Operation), 0 < startingBalance →
      Conserved (@run referenceRuntime config (opening startingBalance now durability) ops) := by
  intro hclaim
  have hrun := hclaim exampleConfig nineDecimals 0 .inMemory [exampleBuy "BTCUSDT" 10] (by norm_num [nineDecimals])
  have hlost : ¬Conserved (@run referenceRuntime exampleConfig (opening nineDecimals 0 .inMemory)
      [exampleBuy "BTCUSDT" 10]) := by decide +kernel
  exact hlost hrun

end Aetheris.PaperAccounts
