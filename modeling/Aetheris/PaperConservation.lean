import Aetheris.PaperLedger

namespace Aetheris.PaperConservation

open Lib Money Enums PaperRecords PaperLedger

def tradesOf (journal : List Event) : List PaperTrade :=
  journal.filterMap fun
    | .closed _ _ trade => some trade
    | _ => none

def netClosed (journal : List Event) : Decimal := ((tradesOf journal).map PaperTrade.netPnl).sum

def feesClosed (journal : List Event) : Decimal := ((tradesOf journal).map PaperTrade.fees).sum

def openFees (positions : Dict String EntryTerms) : Decimal := positions.total EntryTerms.entryFee

/-- The day of the session that is running, and the totals it started from. -/
def lastStart (journal : List Event) : Option (Int × Decimal × Decimal) :=
  journal.foldl (fun last e =>
    match e with
    | .started date pnl fees => some (date, pnl, fees)
    | _ => last) none

section Journals

variable {journal more : List Event} {date : Int} {t : EntryTerms} {trade : PaperTrade}

theorem tradesOf_append : tradesOf (journal ++ more) = tradesOf journal ++ tradesOf more :=
  List.filterMap_append

theorem tradesOf_lockedEvents (s s' : SessionLine) : tradesOf (lockedEvents s s') = [] := by
  unfold lockedEvents
  split <;> rfl

theorem lastStart_append_of_quiet (h : ∀ e ∈ more, ∀ d p f, e ≠ .started d p f) :
    lastStart (journal ++ more) = lastStart journal := by
  unfold lastStart
  rw [List.foldl_append]
  induction more generalizing journal with
  | nil => rfl
  | cons e rest ih =>
      have hrest : ∀ e ∈ rest, ∀ d p f, e ≠ Event.started d p f := fun e he => h e (List.mem_cons_of_mem _ he)
      cases e with
      | started d p f => exact absurd rfl (h _ (List.mem_cons_self ..) d p f)
      | opened => exact @ih journal hrest
      | closed => exact @ih journal hrest
      | locked => exact @ih journal hrest

theorem lastStart_started {p f : Decimal} :
    lastStart (journal ++ [.started date p f]) = some (date, p, f) := by
  simp [lastStart]

theorem lockedEvents_quiet (s s' : SessionLine) :
    ∀ e ∈ lockedEvents s s', ∀ d p f, e ≠ Event.started d p f := by
  intro e he d p f hstarted
  subst hstarted
  unfold lockedEvents at he
  split at he <;> simp at he

theorem closing_quiet (s s' : SessionLine) :
    ∀ e ∈ Event.closed date t trade :: lockedEvents s s', ∀ d p f, e ≠ Event.started d p f := by
  intro e he
  rcases List.mem_cons.mp he with rfl | he
  · exact fun _ _ _ => Event.noConfusion
  · exact lockedEvents_quiet s s' e he

end Journals

variable {config : PaperEngineConfig} {today : Int} {admits : Ledger → EntryTerms → Prop} {l m : Ledger}

theorem tradesOf_start : tradesOf (start config today l).journal = tradesOf l.journal :=
  tradesOf_append.trans (List.append_nil _)

theorem tradesOf_enter {t : EntryTerms} : tradesOf (enter today t l).journal = tradesOf l.journal :=
  tradesOf_append.trans (List.append_nil _)

theorem tradesOf_leave {s : SessionLine} {t : EntryTerms} {trade : PaperTrade} {fee : Decimal} :
    tradesOf (leave config today t trade fee s l).journal = tradesOf l.journal ++ [trade] := by
  change tradesOf (l.journal ++ _) = _
  rw [tradesOf_append]
  change _ ++ trade :: tradesOf (lockedEvents _ _) = _
  rw [tradesOf_lockedEvents]

/-- The books balance: what was realised is what trades netted, less the entry
fees of what is still open, and the day's figures are what changed since it started. -/
structure Balanced (l : Ledger) : Prop where
  places_pnl : EightPlaces l.realizedPnl
  places_fees : EightPlaces l.totalFees
  places_entry : ∀ t ∈ l.positions.values, EightPlaces t.entryFee
  pnl : l.realizedPnl = netClosed l.journal - openFees l.positions
  fees : l.totalFees = feesClosed l.journal + openFees l.positions
  trades : ∀ trade ∈ tradesOf l.journal, trade.netPnl = trade.grossPnl - trade.fees
  session : ∀ s ∈ l.session, ∃ p f, lastStart l.journal = some (s.date, p, f) ∧ EightPlaces p ∧ EightPlaces f ∧
    s.realizedPnl = l.realizedPnl - p ∧ s.fees = l.totalFees - f

theorem charge_places {x delta : Decimal} (hx : EightPlaces x) (hdelta : EightPlaces delta) :
    quantizeUsdt (x + delta) = x + delta := quantizeUsdt_of_eightPlaces (hx.add hdelta)

theorem balanced_start (h : Balanced l) : Balanced (start config today l) := by
  refine ⟨h.places_pnl, h.places_fees, h.places_entry, ?_, ?_, ?_, ?_⟩
  · rw [netClosed, tradesOf_start]
    exact h.pnl
  · rw [feesClosed, tradesOf_start]
    exact h.fees
  · rw [tradesOf_start]
    exact h.trades
  · rintro s ⟨⟩
    exact ⟨_, _, lastStart_started, h.places_pnl, h.places_fees, (sub_self _).symm, (sub_self _).symm⟩

theorem balanced_enter {t : EntryTerms} (h : Balanced l) (hfree : t.symbol ∉ l.positions.keys)
    (hfee : EightPlaces t.entryFee) : Balanced (enter today t l) := by
  have hpnl := charge_places h.places_pnl hfee.neg
  have hfees := charge_places h.places_fees hfee
  have hopen : openFees (l.positions.set t.symbol t) = openFees l.positions + t.entryFee :=
    Dict.total_set EntryTerms.entryFee hfree
  refine ⟨eightPlaces_quantizeUsdt _, eightPlaces_quantizeUsdt _, ?_, ?_, ?_, ?_, ?_⟩
  · intro u hu
    rcases Dict.mem_values_set hfree hu with rfl | hu
    · exact hfee
    · exact h.places_entry u hu
  · rw [netClosed, tradesOf_enter]
    change quantizeUsdt (l.realizedPnl + -t.entryFee) =
      netClosed l.journal - openFees (l.positions.set t.symbol t)
    rw [hpnl, hopen, h.pnl]
    ring
  · rw [feesClosed, tradesOf_enter]
    change quantizeUsdt (l.totalFees + t.entryFee) =
      feesClosed l.journal + openFees (l.positions.set t.symbol t)
    rw [hfees, hopen, h.fees]
    ring
  · rw [tradesOf_enter]
    exact h.trades
  · intro s' hs'
    obtain ⟨s, hs, rfl⟩ := Option.mem_map.mp hs'
    obtain ⟨p, f, hstart, hp, hf, hpnl', hfees'⟩ := h.session s hs
    have hquiet : ∀ e ∈ [Event.opened today t], ∀ d p f, e ≠ Event.started d p f := by simp
    refine ⟨p, f, (lastStart_append_of_quiet hquiet).trans hstart, hp, hf, ?_, ?_⟩
    · change quantizeUsdt (s.realizedPnl + -t.entryFee) = quantizeUsdt (l.realizedPnl + -t.entryFee) - p
      rw [hpnl, hpnl', charge_places (h.places_pnl.sub hp) hfee.neg]
      ring
    · change quantizeUsdt (s.fees + t.entryFee) = quantizeUsdt (l.totalFees + t.entryFee) - f
      rw [hfees, hfees', charge_places (h.places_fees.sub hf) hfee]
      ring

theorem balanced_leave {s : SessionLine} {t : EntryTerms} {trade : PaperTrade} {fee : Decimal} (h : Balanced l)
    (hs : l.session = some s) (hheld : l.positions.get? t.symbol = some t) (hgross : EightPlaces trade.grossPnl)
    (hfee : EightPlaces fee) (hfees : trade.fees = quantizeUsdt (t.entryFee + fee))
    (hnet : trade.netPnl = quantizeUsdt (trade.grossPnl - fee - t.entryFee)) :
    Balanced (leave config today t trade fee s l) := by
  have hentry : EightPlaces t.entryFee := h.places_entry t (Dict.mem_values.mpr ⟨_, hheld⟩)
  rw [quantizeUsdt_of_eightPlaces (hentry.add hfee)] at hfees
  rw [quantizeUsdt_of_eightPlaces ((hgross.sub hfee).sub hentry)] at hnet
  have hpnl := charge_places h.places_pnl (hgross.sub hfee)
  have htotal := charge_places h.places_fees hfee
  have hopen : openFees (l.positions.erase t.symbol) + t.entryFee = openFees l.positions :=
    Dict.total_erase EntryTerms.entryFee hheld
  refine ⟨eightPlaces_quantizeUsdt _, eightPlaces_quantizeUsdt _,
    fun u hu => h.places_entry u (Dict.mem_values_erase hu), ?_, ?_, ?_, ?_⟩
  · rw [netClosed, tradesOf_leave, List.map_append, List.sum_append]
    change quantizeUsdt (l.realizedPnl + (trade.grossPnl - fee)) =
      netClosed l.journal + (trade.netPnl + 0) - openFees (l.positions.erase t.symbol)
    rw [hpnl, h.pnl, hnet, ← hopen]
    ring
  · rw [feesClosed, tradesOf_leave, List.map_append, List.sum_append]
    change quantizeUsdt (l.totalFees + fee) =
      feesClosed l.journal + (trade.fees + 0) + openFees (l.positions.erase t.symbol)
    rw [htotal, h.fees, hfees, ← hopen]
    ring
  · rw [tradesOf_leave]
    intro u hu
    rcases List.mem_append.mp hu with hu | hu
    · exact h.trades u hu
    · rw [List.mem_singleton] at hu
      subst hu
      rw [hnet, hfees]
      ring
  · rintro s' ⟨⟩
    obtain ⟨p, f, hstart, hp, hf, hpnl', hfees'⟩ := h.session s hs
    have hlast : lastStart (leave config today t trade fee s l).journal = lastStart l.journal :=
      lastStart_append_of_quiet (closing_quiet _ _)
    refine ⟨p, f, ?_, hp, hf, ?_, ?_⟩
    · rw [hlast, hstart, SessionLine.locked_date]
      rfl
    · rw [SessionLine.locked_realizedPnl]
      change quantizeUsdt (s.realizedPnl + _) = quantizeUsdt (l.realizedPnl + _) - p
      rw [hpnl, hpnl', charge_places (h.places_pnl.sub hp) (hgross.sub hfee)]
      ring
    · rw [SessionLine.locked_fees]
      change quantizeUsdt (s.fees + fee) = quantizeUsdt (l.totalFees + fee) - f
      rw [htotal, hfees', charge_places (h.places_fees.sub hf) hfee]
      ring

theorem balanced_move (hm : Move config today admits l m) (h : Balanced l) : Balanced m := by
  cases hm with
  | start _ => exact balanced_start h
  | enter _ _ _ hfree hfee _ => exact balanced_enter h hfree hfee
  | leave hs _ hheld hgross hfee hfees hnet => exact balanced_leave h hs hheld hgross hfee hfees hnet

/-- The log of trades is the end of what was ever closed. -/
def Logged (l : Ledger) : Prop := ∃ evicted, tradesOf l.journal = evicted ++ l.trades

theorem logged_move (hm : Move config today admits l m) (h : Logged l) : Logged m := by
  obtain ⟨evicted, htrades⟩ := h
  cases hm with
  | start _ => exact ⟨evicted, tradesOf_start.trans htrades⟩
  | enter _ _ _ _ _ _ => exact ⟨evicted, tradesOf_enter.trans htrades⟩
  | @leave s t trade fee hs _ _ _ _ _ _ =>
      refine ⟨evicted ++ (l.trades ++ [trade]).take ((l.trades ++ [trade]).length - config.maxTradeLog), ?_⟩
      rw [tradesOf_leave, htrades, List.append_assoc, List.append_assoc]
      exact congrArg (evicted ++ ·) (List.take_append_drop _ _).symm

/-- Nothing was ever opened. -/
def Untouched (journal : List Event) : Prop := ∀ d t, Event.opened d t ∉ journal

/-- Cash and realised result, before and after the first booking. -/
structure Cash (l : Ledger) : Prop where
  places_pnl : EightPlaces l.realizedPnl
  held : Untouched l.journal → l.positions.entries = [] ∧ l.balance = l.startingBalance ∧ l.realizedPnl = 0
  rounded : ¬Untouched l.journal → EightPlaces l.balance
  conserved : EightPlaces l.startingBalance → l.balance = l.startingBalance + l.realizedPnl

theorem untouched_append {journal more : List Event} (h : ∀ d t, Event.opened d t ∉ more) :
    Untouched (journal ++ more) ↔ Untouched journal := by
  constructor
  · exact fun hall d t hmem => hall d t (List.mem_append_left _ hmem)
  · intro hall d t hmem
    rcases List.mem_append.mp hmem with hmem | hmem
    · exact hall d t hmem
    · exact h d t hmem

theorem cash_charge {delta : Decimal} (h : Cash l) (hdelta : EightPlaces delta)
    (hstarting : EightPlaces l.startingBalance) :
    quantizeUsdt (l.balance + delta) = l.startingBalance + quantizeUsdt (l.realizedPnl + delta) := by
  have hbalance := h.conserved hstarting
  rw [charge_places h.places_pnl hdelta, hbalance, add_assoc]
  exact quantizeUsdt_of_eightPlaces (hstarting.add (h.places_pnl.add hdelta))

theorem cash_start (h : Cash l) : Cash (start config today l) := by
  have hsame : Untouched (start config today l).journal ↔ Untouched l.journal := untouched_append (by simp)
  exact ⟨h.places_pnl, fun hu => h.held (hsame.mp hu), fun hu => h.rounded (fun hl => hu (hsame.mpr hl)),
    h.conserved⟩

theorem cash_enter {t : EntryTerms} (h : Cash l) (hfee : EightPlaces t.entryFee) : Cash (enter today t l) := by
  have htouched : ¬Untouched (enter today t l).journal :=
    fun hall => hall today t (List.mem_append_right _ (List.mem_singleton_self _))
  exact ⟨eightPlaces_quantizeUsdt _, fun hu => absurd hu htouched, fun _ => eightPlaces_quantizeUsdt _,
    fun hstarting => cash_charge h hfee.neg hstarting⟩

theorem cash_leave {s : SessionLine} {t : EntryTerms} {trade : PaperTrade} {fee : Decimal} (h : Cash l)
    (hheld : l.positions.get? t.symbol = some t) (hgross : EightPlaces trade.grossPnl) (hfee : EightPlaces fee) :
    Cash (leave config today t trade fee s l) := by
  have htouched : ¬Untouched (leave config today t trade fee s l).journal := by
    intro hall
    have hl : Untouched l.journal := fun d u hu => hall d u (List.mem_append_left _ hu)
    have hentry := Dict.get?_eq_some.mp hheld
    rw [(h.held hl).1] at hentry
    exact List.not_mem_nil hentry
  exact ⟨eightPlaces_quantizeUsdt _, fun hu => absurd hu htouched, fun _ => eightPlaces_quantizeUsdt _,
    fun hstarting => cash_charge h (hgross.sub hfee) hstarting⟩

theorem cash_move (hm : Move config today admits l m) (h : Cash l) : Cash m := by
  cases hm with
  | start _ => exact cash_start h
  | enter _ _ _ _ hfee _ => exact cash_enter h hfee
  | leave _ _ hheld hgross hfee _ _ => exact cash_leave h hheld hgross hfee

/-- Once something was booked, the identity shows what the account started with. -/
theorem Cash.balance_eq_iff (h : Cash l) :
    l.balance = l.startingBalance + l.realizedPnl ↔ EightPlaces l.startingBalance ∨ Untouched l.journal := by
  constructor
  · intro hbalance
    by_cases hu : Untouched l.journal
    · exact .inr hu
    · have hstarting : l.startingBalance = l.balance - l.realizedPnl := by linarith
      rw [hstarting]
      exact .inl ((h.rounded hu).sub h.places_pnl)
  · rintro (hstarting | hu)
    · exact h.conserved hstarting
    · obtain ⟨_, hbalance, hpnl⟩ := h.held hu
      rw [hbalance, hpnl, add_zero]

end Aetheris.PaperConservation
