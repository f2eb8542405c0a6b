import Aetheris.PaperAccounts

namespace Aetheris.PaperBrake

open Lib Mutation Relation Money Clock Enums Leverage RiskEngine OrderIdentity PaperRecords PaperEngine PaperLedger
  PaperConservation PaperRefinement PaperRuns PaperAccounts

instance (s : SessionLine) : Decidable s.AtLimit := inferInstanceAs (Decidable (_ ∨ _))

/-- A day at one of its limits is locked. -/
def Braked (l : Ledger) : Prop := ∀ s ∈ l.session, s.AtLimit → s.lockState ≠ .none

/-- The fee of the entry leaves the day between its limits. -/
def FeeWithinLimits (l : Ledger) (t : EntryTerms) : Prop :=
  ∀ s ∈ l.session, ¬(s.charge (-t.entryFee) t.entryFee).AtLimit

def openings (journal : List Event) : List EntryTerms :=
  journal.filterMap fun
    | .opened _ t => some t
    | _ => none

/-- The day is locked, and so much was opened until now. -/
def Shut (day : Int) (opened : List EntryTerms) (l : Ledger) : Prop :=
  (∃ s, l.session = some s ∧ s.date = day ∧ s.lockState ≠ .none) ∧ openings l.journal = opened

variable {config : PaperEngineConfig} {today : Int} {admits : Ledger → EntryTerms → Prop} {l m : Ledger}

theorem newLine_within (hlimits : config.dailyLossLimit < 0 ∧ 0 < config.dailyProfitTarget) :
    ¬(newLine config today).AtLimit := not_or.mpr ⟨not_le.mpr hlimits.1, not_le.mpr hlimits.2⟩

theorem braked_move (hlimits : config.dailyLossLimit < 0 ∧ 0 < config.dailyProfitTarget)
    (hm : Move config today FeeWithinLimits l m) : Braked m := by
  cases hm with
  | start _ =>
      rintro s ⟨⟩ hs
      exact absurd hs (newLine_within hlimits)
  | enter _ _ _ _ _ hadmits =>
      intro s' hs' hlimit
      obtain ⟨s, hs, rfl⟩ := Option.mem_map.mp hs'
      exact absurd hlimit (hadmits s hs)
  | leave _ _ _ _ _ _ _ =>
      rintro s ⟨⟩ hs
      exact SessionLine.locked_of_atLimit hs

theorem openings_leave {s : SessionLine} {t : EntryTerms} {trade : PaperTrade} {fee : Decimal} :
    openings (leave config today t trade fee s l).journal = openings l.journal := by
  change openings (l.journal ++ .closed today t trade :: lockedEvents s _) = _
  rw [openings, List.filterMap_append]
  unfold lockedEvents
  split
  · exact List.append_nil _
  · exact List.append_nil _

/-- No order is opened on a day that is locked, and the lock stays. -/
theorem shut_move {opened : List EntryTerms} (hm : Move config today admits l m) (h : Shut today opened l) :
    Shut today opened m := by
  obtain ⟨⟨s, hs, hday, hlock⟩, hopened⟩ := h
  cases hm with
  | start hother => exact absurd hday (hother s hs)
  | enter hs' _ hopen _ _ _ =>
      obtain rfl := Option.some.inj (hs.symm.trans hs')
      exact absurd hopen hlock
  | @leave s' t trade fee hs' _ _ _ _ _ _ =>
      obtain rfl := Option.some.inj (hs.symm.trans hs')
      refine ⟨⟨_, rfl, ?_, ?_⟩, openings_leave.trans hopened⟩
      · rw [SessionLine.locked_date]
        exact hday
      · rw [SessionLine.locked_of_locked (s := s.charge _ _) hlock]
        exact hlock

section Runs

variable [Runtime] {r : Repository} {ops : List Operation}

theorem shut_run {day : Int} {opened : List EntryTerms} (hday : ∀ op ∈ ops, date op.now = day)
    (hkeyed : Keyed (ledger r)) (h : Shut day opened (ledger r)) : Shut day opened (ledger (run config r ops)) := by
  have halong : Along (after config) (fun _ op => date op.now = day) r ops :=
    along_of_forall (fun op hop _ => hday op hop) r
  refine (foldl_invariant (I := fun r => Keyed (ledger r) ∧ Shut day opened (ledger r)) ?_ halong ⟨hkeyed, h⟩).2
  rintro r op ⟨hkeyed, hshut⟩ rfl
  exact ⟨keyed_after hkeyed, after_preserves (fun _ _ hm => shut_move hm) hkeyed hshut⟩

/-- In every run in which no entry's fee takes the day to a limit: a day at a
limit is locked, and from a locked day on nothing is opened until the date changes. -/
theorem brake_holds (config : PaperEngineConfig) (startingBalance : Decimal) (now : Timestamp)
    (durability : Durability) (ops : List Operation)
    (hlimits : config.dailyLossLimit < 0 ∧ 0 < config.dailyProfitTarget)
    (hfees : Along (after config) (fun r op => op.Admitted FeeWithinLimits config r)
      (opening startingBalance now durability) ops) :
    let r := run config (opening startingBalance now durability) ops
    ∀ s ∈ r.state.session, ((line s).AtLimit → s.lockState ≠ .none) ∧
      (s.lockState ≠ .none → ∀ more : List Operation, (∀ op ∈ more, date op.now = s.sessionDate) →
        openings (run config r more).journal = openings r.journal) := by
  intro r s hs
  have hinvariant : Keyed (ledger r) ∧ Braked (ledger r) :=
    run_invariant (I := Braked) (fun _ _ _ hm _ => braked_move hlimits hm) hfees
      ⟨keyed_opening, fun _ hs => nomatch hs⟩
  have hline : (ledger r).session = some (line s) := congrArg (Option.map line) hs
  refine ⟨hinvariant.2 (line s) hline, fun hlock more hday => ?_⟩
  exact (shut_run hday hinvariant.1 ⟨⟨line s, hline, rfl, hlock⟩, rfl⟩).2

end Runs

def exampleSell (symbol : String) (bid : Decimal) : Operation :=
  .closePosition symbol 0 { exampleMark with bidPrice := some bid } .manualClose .empty

/-- A loss of a tenth of the position ends the day, and the fees alone do not. -/
theorem brake_holds_example :
    let r := @run referenceRuntime exampleConfig (opening 1000 0 .inMemory)
      [exampleBuy "BTCUSDT" 10, exampleSell "BTCUSDT" 90]
    ∀ s ∈ r.state.session, ((line s).AtLimit → s.lockState ≠ .none) ∧
      (s.lockState ≠ .none → ∀ more : List Operation, (∀ op ∈ more, date op.now = s.sessionDate) →
        openings (@run referenceRuntime exampleConfig r more).journal = openings r.journal) := by
  have hfee : ∀ entry ∈ @entryOf referenceRuntime exampleConfig (onDay exampleConfig 0 (opening 1000 0 .inMemory))
      { symbol := "BTCUSDT", side := .buy, margin := some 10, clientOrderId := some "BTCUSDT" } exampleMark none
      exampleDecision true, ∀ s ∈ (ledger (onDay exampleConfig 0 (opening 1000 0 .inMemory))).session,
        ¬(s.charge (-entryFee exampleConfig entry) (entryFee exampleConfig entry)).AtLimit := by decide +kernel
  exact @brake_holds referenceRuntime exampleConfig 1000 0 .inMemory _ (by norm_num [exampleConfig])
    ⟨fun entry hentry _ _ => hfee entry hentry, trivial, trivial⟩

example : (@run referenceRuntime exampleConfig (opening 1000 0 .inMemory)
    [exampleBuy "BTCUSDT" 10, exampleSell "BTCUSDT" 90]).state.session.map MutableSession.lockState =
      some .dailyLossLimit := by decide +kernel

/-- One hundred at one per cent: the fee alone is the day's loss limit. -/
def feeSpent : Repository := @run referenceRuntime exampleConfig (opening 1000 0 .inMemory) [exampleBuy "BTCUSDT" 100]

theorem feeSpent_session :
    ∃ s ∈ feeSpent.state.session, s.sessionDate = 0 ∧ (line s).AtLimit ∧ s.lockState = .none := by
  decide +kernel

theorem feeSpent_opens : openings (@run referenceRuntime exampleConfig feeSpent [exampleBuy "ETHUSDT" 100]).journal ≠
    openings feeSpent.journal := by
  decide +kernel

/-- At a limit that a fee reached there is neither a lock nor what a lock does. -/
theorem fee_skips_brake : ¬ ∀ (config : PaperEngineConfig) (startingBalance : Decimal) (now : Timestamp)
    (durability : Durability) (ops : List Operation), config.dailyLossLimit < 0 ∧ 0 < config.dailyProfitTarget →
      let r := @run referenceRuntime config (opening startingBalance now durability) ops
      ∀ s ∈ r.state.session, (line s).AtLimit → s.lockState ≠ .none ∨
        ∀ more : List Operation, (∀ op ∈ more, date op.now = s.sessionDate) →
          openings (@run referenceRuntime config r more).journal = openings r.journal := by
  intro hclaim
  obtain ⟨s, hs, hday, hlimit, hopen⟩ := feeSpent_session
  rcases hclaim exampleConfig 1000 0 .inMemory [exampleBuy "BTCUSDT" 100] (by norm_num [exampleConfig]) s hs hlimit with
    hlock | hmore
  · exact hlock hopen
  · refine feeSpent_opens (hmore [exampleBuy "ETHUSDT" 100] fun op hop => ?_)
    rw [List.mem_singleton] at hop
    rw [hop, hday]
    rfl

end Aetheris.PaperBrake
