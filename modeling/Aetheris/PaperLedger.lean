import Mathlib.Tactic.Abel
import Mathlib.Tactic.Linarith
import Aetheris.PaperRecords

namespace Aetheris.PaperLedger

open Lib Relation Money Enums PaperRecords

/-- What of a day's session decides anything. -/
structure SessionLine where
  date : Int
  realizedPnl : Decimal := 0
  fees : Decimal := 0
  profitTarget : Decimal
  lossLimit : Decimal
  lockState : RiskLockState := .none
  deriving DecidableEq

/-- A paper account without its orders and marks: its money, its day, what is
open, its bounded log of trades, and everything that moved its money so far. -/
@[ext]
structure Ledger where
  startingBalance : Decimal
  balance : Decimal
  realizedPnl : Decimal
  totalFees : Decimal
  session : Option SessionLine
  positions : Dict String EntryTerms
  trades : List PaperTrade
  journal : List Event

def SessionLine.charge (delta fee : Decimal) (s : SessionLine) : SessionLine :=
  { s with realizedPnl := quantizeUsdt (s.realizedPnl + delta), fees := quantizeUsdt (s.fees + fee) }

def SessionLine.AtLimit (s : SessionLine) : Prop :=
  s.realizedPnl ≤ s.lossLimit ∨ s.profitTarget ≤ s.realizedPnl

def SessionLine.locked (s : SessionLine) : SessionLine :=
  if s.lockState ≠ .none then s
  else if s.profitTarget ≤ s.realizedPnl then { s with lockState := .dailyProfitTarget }
  else if s.realizedPnl ≤ s.lossLimit then { s with lockState := .dailyLossLimit }
  else s

def Ledger.charge (delta fee : Decimal) (l : Ledger) : Ledger :=
  { l with
    balance := quantizeUsdt (l.balance + delta)
    realizedPnl := quantizeUsdt (l.realizedPnl + delta)
    totalFees := quantizeUsdt (l.totalFees + fee)
    session := l.session.map (SessionLine.charge delta fee) }

def newLine (config : PaperEngineConfig) (today : Int) : SessionLine where
  date := today
  profitTarget := config.dailyProfitTarget
  lossLimit := config.dailyLossLimit

def lockedEvents (before after : SessionLine) : List Event :=
  if before.lockState = .none ∧ after.lockState ≠ .none then [.locked after.date] else []

def start (config : PaperEngineConfig) (today : Int) (l : Ledger) : Ledger :=
  { l with
    session := some (newLine config today)
    journal := l.journal ++ [.started today l.realizedPnl l.totalFees] }

def enter (today : Int) (t : EntryTerms) (l : Ledger) : Ledger :=
  { l.charge (-t.entryFee) t.entryFee with
    positions := l.positions.set t.symbol t
    journal := l.journal ++ [.opened today t] }

def leave (config : PaperEngineConfig) (today : Int) (t : EntryTerms) (trade : PaperTrade) (fee : Decimal)
    (s : SessionLine) (l : Ledger) : Ledger :=
  let after := (s.charge (trade.grossPnl - fee) fee).locked
  let trades := l.trades ++ [trade]
  { l.charge (trade.grossPnl - fee) fee with
    session := some after
    positions := l.positions.erase t.symbol
    trades := trades.drop (trades.length - config.maxTradeLog)
    journal := l.journal ++ .closed today t trade :: lockedEvents s after }

/-- What calls of one day can do to a ledger. Which entries are admitted is
left to whoever makes the calls. -/
inductive Move (config : PaperEngineConfig) (today : Int) (admits : Ledger → EntryTerms → Prop) :
    Ledger → Ledger → Prop
  | start {l : Ledger} (hday : ∀ s ∈ l.session, s.date ≠ today) :
      Move config today admits l (start config today l)
  | enter {l : Ledger} {s : SessionLine} {t : EntryTerms} (hs : l.session = some s) (hday : s.date = today)
      (hopen : s.lockState = .none) (hfree : t.symbol ∉ l.positions.keys) (hfee : EightPlaces t.entryFee)
      (hadmits : admits l t) : Move config today admits l (enter today t l)
  | leave {l : Ledger} {s : SessionLine} {t : EntryTerms} {trade : PaperTrade} {fee : Decimal}
      (hs : l.session = some s) (hday : s.date = today) (hheld : l.positions.get? t.symbol = some t)
      (hgross : EightPlaces trade.grossPnl) (hfee : EightPlaces fee)
      (hfees : trade.fees = quantizeUsdt (t.entryFee + fee))
      (hnet : trade.netPnl = quantizeUsdt (trade.grossPnl - fee - t.entryFee)) :
      Move config today admits l (leave config today t trade fee s l)

variable {config : PaperEngineConfig} {today : Int} {admits : Ledger → EntryTerms → Prop} {l m : Ledger}

theorem SessionLine.locked_eq (s : SessionLine) : ∃ lock, s.locked = { s with lockState := lock } := by
  unfold SessionLine.locked
  split
  · exact ⟨s.lockState, rfl⟩
  split
  · exact ⟨_, rfl⟩
  split
  · exact ⟨_, rfl⟩
  · exact ⟨s.lockState, rfl⟩

@[simp] theorem SessionLine.locked_date (s : SessionLine) : s.locked.date = s.date := by
  obtain ⟨lock, h⟩ := s.locked_eq
  rw [h]

@[simp] theorem SessionLine.locked_realizedPnl (s : SessionLine) : s.locked.realizedPnl = s.realizedPnl := by
  obtain ⟨lock, h⟩ := s.locked_eq
  rw [h]

@[simp] theorem SessionLine.locked_fees (s : SessionLine) : s.locked.fees = s.fees := by
  obtain ⟨lock, h⟩ := s.locked_eq
  rw [h]

theorem SessionLine.locked_of_locked {s : SessionLine} (h : s.lockState ≠ .none) : s.locked = s := if_pos h

/-- The brake is engaged once the line is at a limit. -/
theorem SessionLine.locked_of_atLimit {s : SessionLine} (h : s.locked.AtLimit) : s.locked.lockState ≠ .none := by
  unfold SessionLine.locked at h ⊢
  split
  next hlocked => exact hlocked
  next hfree =>
    rw [if_neg hfree] at h
    split
    · exact RiskLockState.noConfusion
    next htarget =>
      rw [if_neg htarget] at h
      split
      · exact RiskLockState.noConfusion
      next hlimit =>
        rw [if_neg hlimit] at h
        exact absurd h (not_or.mpr ⟨hlimit, htarget⟩)

end Aetheris.PaperLedger
