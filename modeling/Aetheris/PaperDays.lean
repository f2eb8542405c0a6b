import Aetheris.PaperWorld

namespace Aetheris.PaperDays

open Lib Coroutine Mutation Relation Money Clock Enums RiskEngine OrderIdentity PaperRecords PaperEngine PaperLedger
  PaperConservation PaperRefinement PaperRuns PaperAccounts PaperService PaperWorld

def dateOf : Event → Int
  | .started day _ _ | .opened day _ | .closed day _ _ | .locked day => day

/-- What an event adds to its day's result. A trade's net counts the entry fee
once more, which was booked when it was opened. -/
def booked : Event → Decimal
  | .opened _ t => -t.entryFee
  | .closed _ t trade => trade.netPnl + t.entryFee
  | _ => 0

def bookedOn (day : Int) (journal : List Event) : Decimal :=
  ((journal.filter fun e => dateOf e = day).map booked).sum

/-- The first locks the day on which the second opens. -/
def overrides : Event → Event → Bool
  | .locked day, .opened day' _ => day = day'
  | _, _ => false

def LocksHold (journal : List Event) : Prop := journal.Pairwise fun e f => overrides e f = false

def startDates (journal : List Event) : List Int :=
  journal.filterMap fun
    | .started day _ _ => some day
    | _ => none

section Journals

variable {day : Int} {journal more : List Event}

theorem bookedOn_append : bookedOn day (journal ++ more) = bookedOn day journal + bookedOn day more := by
  rw [bookedOn, List.filter_append, List.map_append, List.sum_append]
  rfl

theorem bookedOn_of_other (h : ∀ e ∈ journal, dateOf e ≠ day) : bookedOn day journal = 0 := by
  have hnone : (journal.filter fun e => dateOf e = day) = [] :=
    List.filter_eq_nil_iff.mpr fun e he => by simpa using h e he
  rw [bookedOn, hnone]
  rfl

theorem startDates_append : startDates (journal ++ more) = startDates journal ++ startDates more :=
  List.filterMap_append

theorem mem_startDates (h : day ∈ startDates journal) : ∃ e ∈ journal, dateOf e = day := by
  obtain ⟨e, he, hday⟩ := List.mem_filterMap.mp h
  refine ⟨e, he, ?_⟩
  cases e with
  | started d p f => exact Option.some.inj hday
  | _ => cases hday

theorem mem_snoc {e f : Event} (he : e ∈ journal ++ [f]) : e ∈ journal ∨ e = f := by
  simpa using he

theorem locksHold_append (h : LocksHold journal) (hmore : LocksHold more)
    (hcross : ∀ e ∈ journal, ∀ f ∈ more, overrides e f = false) : LocksHold (journal ++ more) :=
  List.pairwise_append.mpr ⟨h, hmore, hcross⟩

end Journals

/-- The days of an account follow one another: the session that is stored is the
latest day's, holds all that was booked on it, and is locked once a lock was engaged. -/
structure Accrued (l : Ledger) : Prop where
  balanced : Balanced l
  unbegun : l.session = none → l.journal = []
  latest : ∀ s ∈ l.session, ∀ e ∈ l.journal, dateOf e ≤ s.date
  accrued : ∀ s ∈ l.session, s.realizedPnl = bookedOn s.date l.journal
  locked : ∀ s ∈ l.session, .locked s.date ∈ l.journal → s.lockState ≠ .none
  locks : LocksHold l.journal
  starts : (startDates l.journal).Nodup

/-- No session that is stored is later than the day. -/
def OnTime (today : Int) (l : Ledger) : Prop := ∀ s ∈ l.session, s.date ≤ today

section Moves

variable {config : PaperEngineConfig} {today : Int} {admits : Ledger → EntryTerms → Prop} {l m : Ledger}

theorem places_session (h : Balanced l) {s : SessionLine} (hs : l.session = some s) : EightPlaces s.realizedPnl := by
  obtain ⟨p, f, _, hp, _, hpnl, _⟩ := h.session s hs
  rw [hpnl]
  exact h.places_pnl.sub hp

theorem accrued_start (h : Accrued l) (hlate : OnTime today l) (hday : ∀ s ∈ l.session, s.date ≠ today) :
    Accrued (start config today l) := by
  have hbefore : ∀ e ∈ l.journal, dateOf e < today := by
    intro e he
    cases hs : l.session with
    | none =>
        rw [h.unbegun hs] at he
        exact absurd he List.not_mem_nil
    | some s => exact (h.latest s hs e he).trans_lt (lt_of_le_of_ne (hlate s hs) (hday s hs))
  refine ⟨balanced_start h.balanced, nofun, ?_, ?_, ?_, ?_, ?_⟩
  · rintro s ⟨⟩ e he
    rcases mem_snoc he with he | rfl
    · exact (hbefore e he).le
    · exact le_rfl
  · rintro s ⟨⟩
    change 0 = bookedOn today (l.journal ++ [_])
    rw [bookedOn_append, bookedOn_of_other fun e he => (hbefore e he).ne]
    simp [bookedOn, dateOf, booked]
  · rintro s ⟨⟩ he
    rcases mem_snoc he with he | he
    · exact absurd (hbefore _ he) (lt_irrefl today)
    · cases he
  · refine locksHold_append h.locks (List.pairwise_singleton _ _) fun e _ f hf => ?_
    rw [List.mem_singleton] at hf
    subst hf
    cases e <;> rfl
  · change (startDates (l.journal ++ [_])).Nodup
    rw [startDates_append]
    refine h.starts.append (List.nodup_singleton today) ?_
    intro d hd htoday
    obtain rfl : d = today := List.mem_singleton.mp htoday
    obtain ⟨e, he, hdate⟩ := mem_startDates hd
    exact (hbefore e he).ne hdate

theorem accrued_enter {s : SessionLine} {t : EntryTerms} (h : Accrued l) (hs : l.session = some s)
    (hday : s.date = today) (hopen : s.lockState = .none) (hfree : t.symbol ∉ l.positions.keys)
    (hfee : EightPlaces t.entryFee) : Accrued (enter today t l) := by
  subst hday
  have hunlocked : Event.locked s.date ∉ l.journal := fun he => h.locked s hs he hopen
  have hsession : (enter s.date t l).session = some (s.charge (-t.entryFee) t.entryFee) := by
    change l.session.map _ = _
    rw [hs]
    rfl
  refine ⟨balanced_enter h.balanced hfree hfee, by rw [hsession]; exact nofun, ?_, ?_, ?_, ?_, ?_⟩
  · rw [hsession]
    rintro _ ⟨⟩ e he
    rcases mem_snoc he with he | rfl
    · exact h.latest s hs e he
    · exact le_rfl
  · rw [hsession]
    rintro _ ⟨⟩
    change quantizeUsdt (s.realizedPnl + -t.entryFee) = bookedOn s.date (l.journal ++ [_])
    rw [charge_places (places_session h.balanced hs) hfee.neg, bookedOn_append, h.accrued s hs]
    simp [bookedOn, dateOf, booked]
  · rw [hsession]
    rintro _ ⟨⟩ he
    rcases mem_snoc he with he | he
    · exact absurd he hunlocked
    · cases he
  · refine locksHold_append h.locks (List.pairwise_singleton _ _) fun e he f hf => ?_
    rw [List.mem_singleton] at hf
    subst hf
    cases e with
    | locked day =>
        refine decide_eq_false fun hsame => hunlocked ?_
        rw [← hsame]
        exact he
    | _ => rfl
  · change (startDates (l.journal ++ [_])).Nodup
    rw [startDates_append]
    exact (List.append_nil _).symm ▸ h.starts

theorem startDates_closing {t : EntryTerms} {trade : PaperTrade} (s s' : SessionLine) :
    startDates (.closed today t trade :: lockedEvents s s') = [] := by
  unfold lockedEvents
  split <;> rfl

theorem mem_lockedEvents {e : Event} {s s' : SessionLine} (h : e ∈ lockedEvents s s') :
    e = .locked s'.date ∧ s'.lockState ≠ .none := by
  unfold lockedEvents at h
  split at h
  next hlock => exact ⟨List.mem_singleton.mp h, hlock.2⟩
  · exact absurd h List.not_mem_nil

theorem overrides_closing {t : EntryTerms} {trade : PaperTrade} (s s' : SessionLine) (e : Event) :
    ∀ f ∈ Event.closed today t trade :: lockedEvents s s', overrides e f = false := by
  intro f hf
  rcases List.mem_cons.mp hf with rfl | hf
  · cases e <;> rfl
  · rw [(mem_lockedEvents hf).1]
    cases e <;> rfl

theorem bookedOn_closing {t : EntryTerms} {trade : PaperTrade} (s s' : SessionLine) :
    bookedOn today (.closed today t trade :: lockedEvents s s') = trade.netPnl + t.entryFee := by
  unfold lockedEvents
  split
  · simp only [bookedOn, List.filter_cons, dateOf, decide_true, if_true, List.map_cons, List.sum_cons, booked]
    split <;> simp [booked]
  · simp [bookedOn, dateOf, booked]

theorem accrued_leave {s : SessionLine} {t : EntryTerms} {trade : PaperTrade} {fee : Decimal} (h : Accrued l)
    (hs : l.session = some s) (hday : s.date = today) (hheld : l.positions.get? t.symbol = some t)
    (hgross : EightPlaces trade.grossPnl) (hfee : EightPlaces fee)
    (hfees : trade.fees = quantizeUsdt (t.entryFee + fee))
    (hnet : trade.netPnl = quantizeUsdt (trade.grossPnl - fee - t.entryFee)) :
    Accrued (leave config today t trade fee s l) := by
  subst hday
  have hentry : EightPlaces t.entryFee := h.balanced.places_entry t (Dict.mem_values.mpr ⟨_, hheld⟩)
  let closing := (s.charge (trade.grossPnl - fee) fee).locked
  have hdate : closing.date = s.date := SessionLine.locked_date _
  refine ⟨balanced_leave h.balanced hs hheld hgross hfee hfees hnet, nofun, ?_, ?_, ?_, ?_, ?_⟩
  · rintro s' ⟨⟩ e he
    change dateOf e ≤ closing.date
    rw [hdate]
    rcases List.mem_append.mp he with he | he
    · exact h.latest s hs e he
    · rcases List.mem_cons.mp he with rfl | he
      · exact le_rfl
      · rw [(mem_lockedEvents he).1]
        exact hdate.le
  · rintro s' ⟨⟩
    change closing.realizedPnl = bookedOn closing.date (l.journal ++ _)
    rw [hdate, bookedOn_append, bookedOn_closing, ← h.accrued s hs, SessionLine.locked_realizedPnl, hnet,
      quantizeUsdt_of_eightPlaces ((hgross.sub hfee).sub hentry)]
    change quantizeUsdt (s.realizedPnl + (trade.grossPnl - fee)) = _
    rw [charge_places (places_session h.balanced hs) (hgross.sub hfee)]
    ring
  · rintro s' ⟨⟩ he
    change closing.lockState ≠ .none
    change Event.locked closing.date ∈ _ at he
    rcases List.mem_append.mp he with he | he
    · rw [hdate] at he
      have hlocked := h.locked s hs he
      change (s.charge (trade.grossPnl - fee) fee).locked.lockState ≠ .none
      rw [SessionLine.locked_of_locked (s := s.charge _ _) hlocked]
      exact hlocked
    · rcases List.mem_cons.mp he with he | he
      · cases he
      · exact (mem_lockedEvents he).2
  · refine locksHold_append h.locks ?_ fun e _ => overrides_closing _ _ e
    exact List.pairwise_of_forall_mem_list fun e _ => overrides_closing _ _ e
  · change (startDates (l.journal ++ _)).Nodup
    rw [startDates_append, startDates_closing, List.append_nil]
    exact h.starts

theorem accrued_move (hm : Move config today admits l m) (h : Accrued l ∧ OnTime today l) :
    Accrued m ∧ OnTime today m := by
  cases hm with
  | start hday =>
      refine ⟨accrued_start h.1 h.2 hday, ?_⟩
      rintro s ⟨⟩
      exact le_rfl
  | enter hs hday hopen hfree hfee _ =>
      refine ⟨accrued_enter h.1 hs hday hopen hfree hfee, fun s' hs' => ?_⟩
      obtain ⟨s, hs, rfl⟩ := Option.mem_map.mp hs'
      exact h.2 s hs
  | leave hs hday hheld hgross hfee hfees hnet =>
      refine ⟨accrued_leave h.1 hs hday hheld hgross hfee hfees hnet, ?_⟩
      rintro s' ⟨⟩
      exact (SessionLine.locked_date _).trans_le hday.le

end Moves

/-- What a day's budget needs of an account: its session holds all that was booked
on its date, nothing is opened on a day after its lock, and no day starts twice. -/
def Survives (r : Repository) : Prop :=
  (∀ s ∈ r.state.session, s.realizedPnl = bookedOn s.sessionDate r.journal) ∧ LocksHold r.journal ∧
    (startDates r.journal).Nodup

/-- An engine call that is not dated before the session it finds. -/
def Timely {β : Type} (f : Effect β) (w : World) : Prop :=
  ∀ op ∈ f.operation?, ∀ s ∈ w.repository.state.session, s.sessionDate ≤ date op.now

instance {β : Type} (f : Effect β) (w : World) : Decidable (Timely f w) :=
  inferInstanceAs (Decidable (∀ op ∈ f.operation?, ∀ s ∈ w.repository.state.session, s.sessionDate ≤ date op.now))

section Runs

theorem accrued_opening {startingBalance : Decimal} {now : Timestamp} {durability : Durability} :
    Accrued (ledger (opening startingBalance now durability)) where
  balanced := balanced_opening
  unbegun _ := rfl
  latest _ hs := nomatch hs
  accrued _ hs := nomatch hs
  locked _ hs := nomatch hs
  locks := .nil
  starts := .nil

variable [Runtime] {config : PaperEngineConfig}

theorem accrued_after {op : Operation} {r : Repository} (hkeyed : Keyed (ledger r)) (h : Accrued (ledger r))
    (htimely : ∀ s ∈ r.state.session, s.sessionDate ≤ date op.now) : Accrued (ledger (after config r op)) := by
  have honTime : OnTime (date op.now) (ledger r) := by
    intro s hs
    obtain ⟨ms, hms, rfl⟩ := Option.mem_map.mp hs
    exact htimely ms hms
  exact (after_preserves (I := fun l => Accrued l ∧ OnTime (date op.now) l) (fun _ _ hm => accrued_move hm) hkeyed
    ⟨h, honTime⟩).1

/-- The steps of a world in which no engine call is dated before the session it finds. -/
def timely (config : PaperEngineConfig) : Semantics Effect ServiceError World :=
  fun f w r w' => exec config f w r w' ∧ Timely f w

def AccruedWorld (w : World) : Prop := Keyed (ledger w.repository) ∧ Accrued (ledger w.repository)

theorem accrued_exec {β : Type} {f : Effect β} {w w' : World} {r : Except ServiceError β} (h : AccruedWorld w)
    (hx : timely config f w r w') : AccruedWorld w' := by
  obtain ⟨hx, htimely⟩ := hx
  unfold AccruedWorld
  rcases exec_repository hx with hsame | ⟨op, hop, hcall⟩ | ⟨startingBalance, now, hreset⟩
  · rw [hsame]
    exact h
  · rw [hcall]
    exact ⟨keyed_after h.1, accrued_after h.1 h.2 (htimely op hop)⟩
  · rw [hreset]
    exact ⟨keyed_after keyed_opening, accrued_after keyed_opening accrued_opening fun _ hs => nomatch hs⟩

/-- In every interleaving of the service's calls in which no engine call is dated
before the session it finds, every day's budget survives. -/
theorem days_survive (config : PaperEngineConfig) (service : PaperTradingService) (startingBalance : Decimal)
    (now : Timestamp) (durability : Durability) (w : World) (pool : List (ServiceM Unit))
    (h : Reachable (timely config) (Serves service) (booted startingBalance now durability) (w, pool)) :
    Survives w.repository := by
  have hall : AccruedWorld w :=
    reachable_performs (Q := fun _ => True) (I := AccruedWorld) (fun c _ => performs_of_forall (fun _ => trivial) c)
      (fun _ _ _ _ _ hw hx => accrued_exec hw hx) ⟨keyed_opening, accrued_opening⟩ h
  refine ⟨fun s hs => ?_, hall.2.locks, hall.2.starts⟩
  exact hall.2.accrued (line s) (Option.mem_map_of_mem line hs)

end Runs

section Midnight

/-- A call, carried on for so many effects in the market of one moment. -/
def carried (venue : Venue) (n : Nat) (c : ServiceM Unit) (w : World) : ServiceM Unit × World :=
  c.advance (@Venue.answers referenceRuntime exampleConfig venue) n w

def called (call : ServiceCall) : ServiceM Unit := @serve referenceRuntime exampleService call

theorem answers_ok (venue : Venue) : ∀ {β : Type} (f : Effect β) (w : World), true = true →
    @exec referenceRuntime exampleConfig β f w (@Venue.answers referenceRuntime exampleConfig venue β f w).1
      (@Venue.answers referenceRuntime exampleConfig venue β f w).2 :=
  fun f w _ => @exec_answers referenceRuntime exampleConfig venue _ f w

/-- The first day ends with a loss, and locked. -/
def lossBought : ServiceM Unit × World :=
  carried (quoted 0 99) 40 (called (exampleOrder "BTCUSDT")) (booted 1000 0 .inMemory)

def lossTaken : ServiceM Unit × World :=
  carried (quoted 0 90) 40 (called (.closePosition "BTCUSDT" .manualClose)) lossBought.2

/-- An order that has read the clock waits for the venue's record of its symbol. -/
def waiting : ServiceM Unit × World := carried (quoted 0 90) 3 (called (exampleOrder "ETHUSDT")) lossTaken.2

/-- On the next day somebody looks at the account. -/
def looked : ServiceM Unit × World := carried (quoted day 90) 40 (called .getAccount) waiting.2

def resumed : ServiceM Unit × World := carried (quoted day 90) 40 waiting.1 looked.2

theorem resumed_reachable : @Reachable _ _ _ _ (@exec referenceRuntime exampleConfig)
    (@Serves referenceRuntime exampleService) (booted 1000 0 .inMemory)
    (resumed.2, [looked.1] ++ resumed.1 :: [lossTaken.1, lossBought.1]) := by
  have hbought := reachable_begin _ (@Serves referenceRuntime exampleService) (answers_ok (quoted 0 99)) 40 .refl
    ⟨exampleOrder "BTCUSDT", rfl⟩ (passes_of_forall 40 _ (booted 1000 0 .inMemory))
  have htaken := reachable_begin _ _ (answers_ok (quoted 0 90)) 40 hbought
    ⟨.closePosition "BTCUSDT" .manualClose, rfl⟩ (passes_of_forall ..)
  have hwaiting := reachable_begin _ _ (answers_ok (quoted 0 90)) 3 htaken ⟨exampleOrder "ETHUSDT", rfl⟩
    (passes_of_forall ..)
  have hlooked := reachable_begin _ _ (answers_ok (quoted day 90)) 40 hwaiting ⟨.getAccount, rfl⟩
    (passes_of_forall ..)
  have hpool : @Reachable _ _ _ _ (@exec referenceRuntime exampleConfig) (@Serves referenceRuntime exampleService)
      (booted 1000 0 .inMemory) (looked.2, [looked.1] ++ waiting.1 :: [lossTaken.1, lossBought.1]) := hlooked
  exact reachable_advance _ _ (answers_ok (quoted day 90)) 40 hpool (passes_of_forall ..)

theorem resumed_lost : ¬(∀ s ∈ resumed.2.repository.state.session, s.realizedPnl =
    bookedOn s.sessionDate resumed.2.repository.journal) ∧ ¬LocksHold resumed.2.repository.journal ∧
    ¬(startDates resumed.2.repository.journal).Nodup := by
  unfold LocksHold
  decide +kernel

/-- Nothing of a day's budget survives a call that is dated before the session it finds. -/
theorem budget_lost_at_midnight : ¬ ∀ (config : PaperEngineConfig) (service : PaperTradingService)
    (startingBalance : Decimal) (now : Timestamp) (durability : Durability) (w : World) (pool : List (ServiceM Unit)),
    @Reachable _ _ _ _ (@exec referenceRuntime config) (@Serves referenceRuntime service)
      (booted startingBalance now durability) (w, pool) →
    (∀ s ∈ w.repository.state.session, s.realizedPnl = bookedOn s.sessionDate w.repository.journal) ∨
      LocksHold w.repository.journal ∨ (startDates w.repository.journal).Nodup := by
  intro hclaim
  obtain ⟨hsession, hlocks, hstarts⟩ := resumed_lost
  rcases hclaim exampleConfig exampleService 1000 0 .inMemory _ _ resumed_reachable with h | h | h
  · exact hsession h
  · exact hlocks h
  · exact hstarts h

/-- The look at the account, had it come before the next order read the clock. -/
def lookedFirst : ServiceM Unit × World := carried (quoted day 90) 40 (called .getAccount) lossTaken.2

def nextDay : ServiceM Unit × World := carried (quoted day 90) 40 (called (exampleOrder "ETHUSDT")) lookedFirst.2

theorem days_survive_example : startDates nextDay.2.repository.journal = [0, 1] ∧ Survives nextDay.2.repository := by
  have henv : ∀ (venue : Venue) {β : Type} (f : Effect β) (w : World), decide (Timely f w) = true →
      @timely referenceRuntime exampleConfig β f w (@Venue.answers referenceRuntime exampleConfig venue β f w).1
        (@Venue.answers referenceRuntime exampleConfig venue β f w).2 :=
    fun venue _ f w h => ⟨@exec_answers referenceRuntime exampleConfig venue _ f w, of_decide_eq_true h⟩
  have hbought := reachable_begin _ (@Serves referenceRuntime exampleService) (henv (quoted 0 99)) 40 .refl
    ⟨exampleOrder "BTCUSDT", rfl⟩ (w := booted 1000 0 .inMemory) (by decide +kernel)
  have htaken := reachable_begin _ _ (henv (quoted 0 90)) 40 hbought ⟨.closePosition "BTCUSDT" .manualClose, rfl⟩
    (by decide +kernel)
  have hlooked := reachable_begin _ _ (henv (quoted day 90)) 40 htaken ⟨.getAccount, rfl⟩ (by decide +kernel)
  have hnext := reachable_begin _ _ (henv (quoted day 90)) 40 hlooked ⟨exampleOrder "ETHUSDT", rfl⟩
    (by decide +kernel)
  exact ⟨by decide +kernel,
    @days_survive referenceRuntime exampleConfig exampleService 1000 0 .inMemory nextDay.2 _ hnext⟩

end Midnight

end Aetheris.PaperDays
